import UserFederation.Proofs.Hosting
import UserFederation.Proofs.Quotation

/-! How the settings are kept. What is written for settings is read back as they are
(`Settings.ofText_text`). So after any runs that change single settings, each one has the value that
was accepted for it last, and a run whose key or value is turned down leaves the file alone
(`Configure.last_change_wins`). -/

namespace UserFederation

/-! ### The file -/

namespace Settings

open Toml

theorem isWord_key :
    ∀ key ∈ ["server_url", "default_realm", "output_format", "access_token", "auth"],
      IsWord key := by
  unfold IsWord
  decide

/-- What the file says. -/
def document (s : Settings) : Document :=
  .map (("server_url", .text s.serverUrl) ::
    (s.defaultRealm.map fun realm => ("default_realm", Document.text realm)).toList ++
    ("output_format", .text s.format.word) ::
    (s.credentials.map fun c => ("auth", Document.map
      (c.accessToken.map fun token => ("access_token", Document.text token)).toList)).toList)

theorem toList_text (s : Settings) :
    s.text.toList = (line "server_url" s.serverUrl).toList ++
      ((s.defaultRealm.map fun realm => (line "default_realm" realm).toList).getD [] ++
      ((line "output_format" s.format.word).toList ++
      (s.credentials.map fun c => '\n' :: '[' :: ("auth".toList ++ ']' :: '\n' ::
        (c.accessToken.map fun token =>
          (line "access_token" token).toList ++ []).getD [])).getD [])) := by
  have header : "\n[auth]\n".toList = '\n' :: '[' :: ("auth".toList ++ [']', '\n']) := by decide
  obtain ⟨url, _ | realm, format, _ | ⟨_ | token⟩⟩ := s <;> simp [text, header]

theorem read?_text (s : Settings) : Toml.read? s.text = some s.document := by
  have first : s.text.toList.head? = some 's' := by simp [toList_text, line]
  have url := isWord_key "server_url" (by decide)
  have realm := isWord_key "default_realm" (by decide)
  have format := isWord_key "output_format" (by decide)
  have token := isWord_key "access_token" (by decide)
  have auth := isWord_key "auth" (by decide)
  rw [Toml.read?, first, if_neg (by decide), toList_text]
  obtain ⟨url, _ | realm, format, _ | ⟨_ | token⟩⟩ := s
  all_goals
    dsimp only [Option.map_none, Option.map_some, Option.getD_none, Option.getD_some]
    simp only [List.nil_append, lines?_line, lines?_newline, lines?_header, lines?_nil, *]
    rfl

theorem read?_document (s : Settings) : read? s.document = some s := by
  obtain ⟨url, _ | realm, format, _ | ⟨_ | token⟩⟩ := s <;> cases format <;> rfl

theorem ofText_text (s : Settings) : ofText s.text = .ok s := by
  rw [ofText, read?_text, Option.bind_some, read?_document]

end Settings

/-! ### Single settings -/

namespace Setting

/-- What a setting can be. -/
def Value : Setting → Type
  | .serverUrl => String
  | .defaultRealm => Option String
  | .format => Format
  | .accessToken => Option Credentials

/-- What a text stands for as the value of a setting, `none` if it is turned down. -/
def read? : (setting : Setting) → String → Option setting.Value
  | .serverUrl, text => some text
  | .defaultRealm, text => some (Settings.given? text)
  | .format, text => Format.ofWord? text
  | .accessToken, text => some ((Settings.given? text).map fun token => ⟨some token⟩)

end Setting

namespace Settings

/-- The value of a setting. -/
def get (s : Settings) : (setting : Setting) → setting.Value
  | .serverUrl => s.serverUrl
  | .defaultRealm => s.defaultRealm
  | .format => s.format
  | .accessToken => s.credentials

/-- Replaces the value of a setting. -/
def replace (s : Settings) : (setting : Setting) → setting.Value → Settings
  | .serverUrl, serverUrl => { s with serverUrl }
  | .defaultRealm, defaultRealm => { s with defaultRealm }
  | .format, format => { s with format }
  | .accessToken, credentials => { s with credentials }

variable {s t : Settings} {setting other : Setting}

theorem ext_get (h : ∀ setting, s.get setting = t.get setting) : s = t := by
  obtain ⟨url, realm, format, credentials⟩ := s
  obtain rfl : url = t.serverUrl := h .serverUrl
  obtain rfl : realm = t.defaultRealm := h .defaultRealm
  obtain rfl : format = t.format := h .format
  obtain rfl : credentials = t.credentials := h .accessToken
  rfl

theorem get_replace (x : setting.Value) : (s.replace setting x).get setting = x := by
  cases setting <;> rfl

theorem get_replace_of_ne (x : setting.Value) (ne : other ≠ setting) :
    (s.replace setting x).get other = s.get other := by
  cases setting <;> cases other <;> first | rfl | exact absurd rfl ne

theorem put_toOption (s : Settings) (setting : Setting) (value : String) :
    (s.put setting value).toOption = (setting.read? value).map (s.replace setting) := by
  cases setting with
  | format =>
    simp only [put, Format.read, Setting.read?]
    cases Format.ofWord? value <;> rfl
  | serverUrl | defaultRealm | accessToken => rfl

theorem set_toOption (s : Settings) (name value : String) :
    (s.set name value).toOption = (Setting.ofName? name).bind fun setting =>
      (setting.read? value).map (s.replace setting) := by
  unfold set
  cases Setting.ofName? name with
  | none => rfl
  | some setting => exact s.put_toOption setting value

end Settings

/-! ### Runs -/

/-- A host that keeps the settings: it reads what was written last, and prints without touching
it. -/
structure Host.KeepsSettings {σ : Type} (host : Host σ) (file : σ → Option String) : Prop where
  read (t : σ) : (host .readSettings t).1 = .ok (file t)
  afterRead (t : σ) : file (host .readSettings t).2 = file t
  write (text : String) (t : σ) : (host (.writeSettings text) t).1 = .ok ()
  afterWrite (text : String) (t : σ) : file (host (.writeSettings text) t).2 = some text
  afterPrint (text : Transcript) (t : σ) : file (host (.print text) t).2 = file t

namespace Configure

/-- A run of the program that is told to change a setting. -/
structure Change where
  terminal : Bool
  environment : String → Option String
  arguments : List String
  invocation : Invocation
  name : String
  value : String
  said : Arguments.read environment arguments = .ok invocation
  command : invocation.command = .set name value

namespace Change

/-- Nothing is known by the name, or the value is no format. -/
def TurnedDown (c : Change) : Prop :=
  Setting.ofName? c.name = none ∨
    Setting.ofName? c.name = some .format ∧ Format.ofWord? c.value = none

instance (c : Change) : Decidable c.TurnedDown := inferInstanceAs (Decidable (_ ∨ _))

/-- What a setting is changed to, `none` if it is not. -/
def given? (c : Change) (setting : Setting) : Option setting.Value :=
  if Setting.ofName? c.name = some setting then setting.read? c.value else none

/-- The settings after a change; one that is turned down does nothing. -/
def apply (s : Settings) (c : Change) : Settings := (s.set c.name c.value).toOption.getD s

variable {σ : Type}

/-- The exit code of a run, and what it leaves. -/
def run (host : Host σ) (path : String) (t : σ) (c : Change) : Nat × σ :=
  (Program.run c.terminal path c.environment c.arguments).run host t

/-- What runs leave one after the other. -/
def runAll (host : Host σ) (path : String) (t : σ) (cs : List Change) : σ :=
  cs.foldl (fun t c => (c.run host path t).2) t

variable {c : Change} {cs cs' : List Change} {s s' : Settings} {setting : Setting}

theorem turnedDown_iff (s : Settings) : c.TurnedDown ↔ (s.set c.name c.value).toOption = none := by
  rw [Settings.set_toOption, TurnedDown]
  cases Setting.ofName? c.name with
  | none => simp
  | some setting =>
    rw [Option.bind_some, Option.map_eq_none_iff]
    cases setting with
    | format =>
      simp only [Setting.read?, reduceCtorEq, false_or, true_and]
      exact Iff.rfl
    | serverUrl | defaultRealm | accessToken => simp [Setting.read?]

theorem get_apply : (apply s c).get setting = (c.given? setting).getD (s.get setting) := by
  rw [apply, Settings.set_toOption, given?]
  cases Setting.ofName? c.name with
  | none => rfl
  | some named =>
    rw [Option.bind_some]
    split
    · rename_i same
      cases same
      cases setting.read? c.value with
      | none => rfl
      | some x => exact Settings.get_replace x
    · rename_i other
      cases named.read? c.value with
      | none => rfl
      | some x => exact Settings.get_replace_of_ne x fun h => other (h ▸ rfl)

theorem turnedDown_iff_given? : c.TurnedDown ↔ ∀ setting, c.given? setting = none := by
  rw [turnedDown_iff {}, Settings.set_toOption]
  cases named : Setting.ofName? c.name with
  | none => simp [given?, named]
  | some setting =>
    rw [Option.bind_some, Option.map_eq_none_iff]
    constructor
    · intro none other
      unfold given?
      split
      · rename_i same
        cases named.symm.trans same
        exact none
      · rfl
    · intro none
      simpa [given?, named] using none setting

/-- Each setting has the value that was given last. -/
theorem get_foldl (cs : List Change) (s : Settings) :
    (cs.foldl apply s).get setting =
      ((cs.filterMap (·.given? setting)).getLast?).getD (s.get setting) := by
  induction cs generalizing s with
  | nil => rfl
  | cons c cs ih =>
    rw [List.foldl_cons, ih, get_apply, List.filterMap_cons]
    cases c.given? setting with
    | none => rfl
    | some x =>
      rw [List.getLast?_cons]
      cases (cs.filterMap (·.given? setting)).getLast? <;> rfl

variable {host : Host σ} {file : σ → Option String} {path : String} {t : σ}

theorem run_load (keeps : host.KeepsSettings file) :
    Settings.load.run.run host t = (Settings.ofFile (file t), (host .readSettings t).2) := by
  rw [Settings.load_run]
  dsimp only [Interaction.run]
  rw [keeps.read]
  rfl

theorem run_execute (keeps : host.KeepsSettings file) (style : Style) {i : Invocation}
    {name value : String} (command : i.command = .set name value) :
    (Program.execute style path s i).run.run host t =
      match s.set name value with
      | .error e => (.error e, t)
      | .ok s' =>
        (.ok (), (host (.print (confirmation style name value))
          (host (.writeSettings s'.text) t).2).2) := by
  rw [Program.execute_set command]
  cases s.set name value with
  | error e => rfl
  | ok s' =>
    dsimp only [Settings.saving, Interaction.run]
    rw [keeps.write]
    rfl

/-- What one run does to the file. -/
theorem run_spec (keeps : host.KeepsSettings file) (found : Settings.ofFile (file t) = .ok s)
    (path : String) (c : Change) :
    (c.run host path t).1 = (if c.TurnedDown then 1 else 0) ∧
      file (c.run host path t).2 = if c.TurnedDown then file t else some (apply s c).text := by
  have down := turnedDown_iff (c := c) s
  have result : apply s c = (s.set c.name c.value).toOption.getD s := rfl
  rw [run, Program.run_said _ _ c.said, Interaction.run_bind, run_load keeps, found]
  dsimp only
  rw [Interaction.run_bind, run_execute keeps _ c.command]
  cases made : s.set c.name c.value with
  | error e =>
    rw [made] at down
    rw [if_pos (down.mpr rfl), if_pos (down.mpr rfl)]
    exact ⟨rfl, (keeps.afterPrint _ _).trans (keeps.afterRead t)⟩
  | ok s' =>
    rw [made] at down result
    have up : ¬c.TurnedDown := fun h => nomatch down.mp h
    rw [if_neg up, if_neg up, result]
    exact ⟨rfl, (keeps.afterPrint _ _).trans (keeps.afterWrite _ _)⟩

/-- What one run leaves is read as the changed settings. -/
theorem ofFile_run (keeps : host.KeepsSettings file) (found : Settings.ofFile (file t) = .ok s)
    (path : String) (c : Change) :
    Settings.ofFile (file (c.run host path t).2) = .ok (apply s c) := by
  rw [(run_spec keeps found path c).2]
  split
  · rename_i down
    rw [found, apply, (turnedDown_iff s).mp down]
    rfl
  · exact Settings.ofText_text _

theorem ofFile_runAll (keeps : host.KeepsSettings file) (cs : List Change)
    (found : Settings.ofFile (file t) = .ok s) :
    Settings.ofFile (file (runAll host path t cs)) = .ok (cs.foldl apply s) := by
  induction cs generalizing s t with
  | nil => exact found
  | cons c cs ih => exact ih (ofFile_run keeps found path c)

theorem foldl_of_turnedDown (down : ∀ c ∈ cs, c.TurnedDown) : cs.foldl apply s = s := by
  induction cs with
  | nil => rfl
  | cons c cs ih =>
    have kept : apply s c = s := by
      rw [apply, (turnedDown_iff s).mp (down c List.mem_cons_self), Option.getD_none]
    rw [List.foldl_cons, kept, ih fun d hd => down d (List.mem_cons_of_mem _ hd)]

/-- The file after some runs: what is written for the settings, unless all were turned down. -/
theorem file_runAll (keeps : host.KeepsSettings file) (cs : List Change)
    (found : Settings.ofFile (file t) = .ok s) :
    file (runAll host path t cs) =
      if ∀ c ∈ cs, c.TurnedDown then file t else some (cs.foldl apply s).text := by
  induction cs generalizing s t with
  | nil => simp [runAll]
  | cons c cs ih =>
    have rest := ih (ofFile_run keeps found path c)
    rw [(run_spec keeps found path c).2] at rest
    rw [runAll, List.foldl_cons]
    refine Eq.trans rest ?_
    by_cases down : c.TurnedDown
    · simp [down]
    · by_cases others : ∀ d ∈ cs, d.TurnedDown
      · simp [down, foldl_of_turnedDown others]
      · simp [down, if_neg others]

end Change

open Change in
/-- After any runs, each setting has the value that was given last under one of its names, else the
one it had. The order of changes to different settings does not matter. A run whose key is unknown,
or whose format is, fails and leaves the file as it was. -/
theorem last_change_wins {σ : Type} {host : Host σ} {file : σ → Option String}
    (keeps : host.KeepsSettings file) (path : String) {t : σ} {s : Settings}
    (found : Settings.ofFile (file t) = .ok s) (cs : List Change) :
    (∃ s', Settings.ofFile (file (runAll host path t cs)) = .ok s' ∧ ∀ setting,
      s'.get setting = ((cs.filterMap (·.given? setting)).getLast?).getD (s.get setting)) ∧
    (∀ cs' : List Change, (∀ setting,
        cs'.filterMap (·.given? setting) = cs.filterMap (·.given? setting)) →
      file (runAll host path t cs') = file (runAll host path t cs)) ∧
    ∀ c : Change,
      let left := c.run host path (runAll host path t cs)
      (left.1 = if c.TurnedDown then 1 else 0) ∧
        (c.TurnedDown → file left.2 = file (runAll host path t cs)) := by
  refine ⟨⟨_, ofFile_runAll keeps cs found, fun setting => get_foldl cs s⟩,
    fun cs' same => ?_, fun c => ?_⟩
  · have settings : cs'.foldl apply s = cs.foldl apply s := Settings.ext_get fun setting => by
      rw [get_foldl, get_foldl, same]
    have down : (∀ c ∈ cs', c.TurnedDown) ↔ ∀ c ∈ cs, c.TurnedDown := by
      have none (cs : List Change) : (∀ c ∈ cs, c.TurnedDown) ↔
          ∀ setting, cs.filterMap (·.given? setting) = [] := by
        simp only [turnedDown_iff_given?, List.filterMap_eq_nil_iff]
        exact ⟨fun h setting c hc => h c hc setting, fun h c hc setting => h setting c hc⟩
      rw [none, none]
      simp only [same]
    rw [file_runAll keeps cs' found, file_runAll keeps cs found, settings]
    simp only [down]
  · obtain ⟨code, left⟩ := run_spec keeps (ofFile_runAll keeps cs found) path c
    exact ⟨code, fun down => left.trans (if_pos down)⟩

/-- A host that has nothing but the file of the settings. -/
def drawer : Host (Option String) := fun effect file =>
  match effect with
  | .readFile _ => (.error .missing, file)
  | .readSettings => (.ok file, file)
  | .writeSettings text => (.ok (), some text)
  | .readLine => ("", file)
  | .print _ => ((), file)
  | .send _ => (none, file)

theorem drawer_keeps : Host.KeepsSettings drawer id :=
  ⟨fun _ => rfl, fun _ => rfl, fun _ _ => rfl, fun _ _ => rfl, fun _ _ => rfl⟩

/-- The server is set under both names, one after the other. -/
def twoServers : List Change :=
  [⟨false, fun _ => none, ["config", "set", "server_url", "http://old"],
      ⟨none, none, .table, false, .set "server_url" "http://old"⟩, _, _, rfl, rfl⟩,
    ⟨false, fun _ => none, ["config", "set", "server", "http://new"],
      ⟨none, none, .table, false, .set "server" "http://new"⟩, _, _, rfl, rfl⟩]

def unknownFormat : Change :=
  ⟨false, fun _ => none, ["config", "set", "output", "xml"],
    ⟨none, none, .table, false, .set "output" "xml"⟩, _, _, rfl, rfl⟩

open Change in
theorem second_server_wins :
    Host.KeepsSettings drawer id ∧ Settings.ofFile (id none) = .ok {} ∧
    (∃ s', Settings.ofFile (id (runAll drawer "kc.toml" none twoServers)) = .ok s' ∧
      s'.serverUrl = "http://new" ∧ s'.format = .table) ∧
    unknownFormat.TurnedDown ∧
    (unknownFormat.run drawer "kc.toml" (runAll drawer "kc.toml" none twoServers)).1 = 1 := by
  have down : unknownFormat.TurnedDown := .inr ⟨rfl, by decide +kernel⟩
  obtain ⟨⟨s', read, values⟩, -, failed⟩ :=
    last_change_wins drawer_keeps "kc.toml" (t := none) (s := {}) rfl twoServers
  refine ⟨drawer_keeps, rfl, ⟨s', read, values .serverUrl, values .format⟩, down, ?_⟩
  exact (failed unknownFormat).1.trans (if_pos down)

end Configure

end UserFederation
