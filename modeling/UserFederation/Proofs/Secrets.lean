import UserFederation.Proofs.Keeping

/-! What the commands on settings tell of the access token: whether there is one, and nothing else.
Two programs agree if nobody can tell them apart who sees what they print and how they end
(`Configure.Agree`); those of settings that differ in the token do (`Configure.execute_agree`), and
so do their runs (`Configure.token_untold`). -/

namespace UserFederation

/-- The settings without the text of the token. -/
def Settings.hideToken (s : Settings) : Settings :=
  { s with credentials := s.credentials.map fun c => ⟨c.accessToken.map fun _ => ""⟩ }

namespace Command

/-- A command without the token in it. -/
def hideToken : Command → Command
  | .set name value => .set name (if Setting.ofName? name = some .accessToken then "" else value)
  | command => command

/-- Whether a command is about the settings. -/
def isConfig : Command → Bool
  | .show | .set .. | .init => true
  | .apply .. | .get .. => false

end Command

namespace Configure

/-- Programs that print the same and end alike. They may write different texts, and go on from
different answers to the question for the token. The questions are those that are not yet
answered. -/
inductive Agree {α β : Type} (R : α → β → Prop) :
    List Question → Hosted α → Hosted β → Prop
  | done {a : α} {b : β} {left : List Question} : R a b → Agree R left (.done a) (.done b)
  | print {text : Transcript} {next : Unit → Hosted α} {next' : Unit → Hosted β}
      {left : List Question} : Agree R left (next ()) (next' ()) →
      Agree R left (.ask (.print text) next) (.ask (.print text) next')
  | write {text text' : String} {next : Except FileFault Unit → Hosted α}
      {next' : Except FileFault Unit → Hosted β} {left : List Question} :
      (∀ reply, Agree R left (next reply) (next' reply)) →
      Agree R left (.ask (.writeSettings text) next) (.ask (.writeSettings text') next')
  | line {question : Question} {next : String → Hosted α} {next' : String → Hosted β}
      {left : List Question} :
      (∀ line line', (question ≠ .token → line = line') → Agree R left (next line) (next' line')) →
      Agree R (question :: left) (.ask .readLine next) (.ask .readLine next')

namespace Agree

variable {α β γ δ : Type} {R : α → β → Prop} {S : γ → δ → Prop} {questions : List Question}
  {p : Hosted α} {p' : Hosted β}

theorem bind {f : α → Hosted γ} {f' : β → Hosted δ} (first : Agree R questions p p')
    (rest : ∀ left a b, R a b → Agree S left (f a) (f' b)) :
    Agree S questions (p.bind f) (p'.bind f') := by
  induction first with
  | done same => exact rest _ _ _ same
  | print _ ih => exact .print ih
  | write _ ih => exact .write ih
  | line _ ih => exact .line ih

end Agree

/-! ### Hosts -/

/-- Two hosts are alike in pairs of states if they treat files alike, and type the same but for the
token. -/
structure Alike {σ τ : Type} (host : Host σ) (host' : Host τ)
    (alike : List Question → σ → τ → Prop) : Prop where
  print {questions s t} (text : Transcript) : alike questions s t →
    alike questions (host (.print text) s).2 (host' (.print text) t).2
  write {questions s t} (text text' : String) : alike questions s t →
    (host (.writeSettings text) s).1 = (host' (.writeSettings text') t).1 ∧
      alike questions (host (.writeSettings text) s).2 (host' (.writeSettings text') t).2
  line {question questions s t} : alike (question :: questions) s t →
    (question ≠ .token → (host .readLine s).1 = (host' .readLine t).1) ∧
      alike questions (host .readLine s).2 (host' .readLine t).2

/-- On hosts that are alike, programs that agree print the same and have the same results. -/
theorem Agree.run_eq {α β σ τ : Type} {R : α → β → Prop} {host : Host σ} {host' : Host τ}
    {alike : List Question → σ → τ → Prop} {questions : List Question} {p : Hosted α}
    {p' : Hosted β} (agree : Agree R questions p p') (hosts : Alike host host' alike)
    {s : σ} {t : τ} (start : alike questions s t) :
    R (p.run host s).1 (p'.run host' t).1 ∧
      (Hosted.events host p s).filterMap Event.text? =
        (Hosted.events host' p' t).filterMap Event.text? := by
  induction agree generalizing s t with
  | done same => exact ⟨same, rfl⟩
  | @print text _ _ _ _ ih =>
    obtain ⟨results, texts⟩ := ih (hosts.print text start)
    exact ⟨results, congrArg (text :: ·) texts⟩
  | @write text text' next next' _ _ ih =>
    obtain ⟨same, after⟩ := hosts.write text text' start
    show R ((next (host (.writeSettings text) s).1).run host _).1
        ((next' (host' (.writeSettings text') t).1).run host' _).1 ∧
      (Hosted.events host (next (host (.writeSettings text) s).1) _).filterMap Event.text? =
        (Hosted.events host' (next' (host' (.writeSettings text') t).1) _).filterMap Event.text?
    rw [← same]
    exact ih _ after
  | line _ ih =>
    obtain ⟨same, after⟩ := hosts.line start
    exact ih _ _ same after

/-! ### Commands -/

theorem describe_congr {s s' : Settings} (same : s.hideToken = s'.hideToken) (style : Style)
    (path : String) : describe style path s = describe style path s' := by
  obtain ⟨url, realm, format, credentials⟩ := s
  obtain ⟨url', realm', format', credentials'⟩ := s'
  simp only [Settings.hideToken, Settings.mk.injEq] at same
  obtain ⟨rfl, rfl, rfl, tokens⟩ := same
  have given : (Settings.accessToken ⟨url, realm, format, credentials⟩).isSome =
      (Settings.accessToken ⟨url, realm, format, credentials'⟩).isSome := by
    rcases credentials with _ | ⟨_ | token⟩ <;> rcases credentials' with _ | ⟨_ | token'⟩ <;>
      simp_all [Settings.accessToken]
  simp only [describe, given]

/-- What questions show of the settings. -/
def shown (s : Settings) : Settings := { s with credentials := none }

theorem text_shown (s : Settings) (question : Question) :
    question.text (shown s) = question.text s := by
  cases question <;> rfl

theorem shown_accept {question : Question} (other : question ≠ .token) (s : Settings)
    (answer : String) : shown (question.accept s answer) = question.accept (shown s) answer := by
  cases question with
  | token => exact absurd rfl other
  | server | realm => exact apply_ite shown _ _ _
  | format => rfl

theorem shown_accept_token (s : Settings) (answer : String) :
    shown (Question.token.accept s answer) = shown s := by
  unfold Question.accept
  dsimp only
  split <;> rfl

theorem interview_agree (questions : List Question) {s s' : Settings} (same : shown s = shown s') :
    Agree (fun s s' => shown s = shown s') questions (interview questions s)
      (interview questions s') := by
  induction questions generalizing s s' with
  | nil => exact .done same
  | cons question rest ih =>
    unfold interview
    rw [← text_shown s, same, text_shown s']
    refine .print (.line fun line line' typed => ih ?_)
    by_cases token : question = .token
    · rw [token, shown_accept_token, shown_accept_token, same]
    · rw [shown_accept token, shown_accept token, same, typed token]

theorem saving_agree (s s' : Settings) (questions : List Question) (text : Transcript) :
    Agree Eq questions (s.saving text) (s'.saving text) :=
  .write fun reply => by
    cases reply with
    | ok => exact .print (.done rfl)
    | error => exact .done rfl

theorem confirmation_congr {name value value' : String}
    (same : Setting.ofName? name ≠ some .accessToken → value = value') (style : Style) :
    confirmation style name value = confirmation style name value' := by
  unfold confirmation
  split
  · rfl
  · rename_i other
    rw [same other]

theorem set_agree (style : Style) (path : String) (s s' : Settings) {i i' : Invocation}
    {name value value' : String} (command : i.command = .set name value)
    (command' : i'.command = .set name value')
    (same : Setting.ofName? name ≠ some .accessToken → value = value') :
    Agree Eq Question.all (Program.execute style path s i).run
      (Program.execute style path s' i').run := by
  rw [Program.execute_set command, Program.execute_set command', confirmation_congr same]
  unfold Settings.set
  cases named : Setting.ofName? name with
  | none => exact .done rfl
  | some setting =>
    cases setting with
    | format =>
      rw [same (by simp [named])]
      dsimp only [Settings.put]
      cases Format.read value' with
      | error e => exact .done rfl
      | ok format => exact saving_agree ..
    | serverUrl | defaultRealm | accessToken => exact saving_agree ..

/-- Commands on settings agree that differ in the token alone. -/
theorem execute_agree (style : Style) (path : String) {s s' : Settings} {i i' : Invocation}
    (same : s.hideToken = s'.hideToken) (told : i.command.hideToken = i'.command.hideToken)
    (config : i.command.isConfig) :
    Agree Eq Question.all (Program.execute style path s i).run
      (Program.execute style path s' i').run := by
  cases command : i.command with
  | apply | get => rw [command] at config; cases config
  | «show» =>
    cases command' : i'.command with
    | «show» =>
      rw [Program.execute_show command, Program.execute_show command', describe_congr same]
      exact .print (.done rfl)
    | _ => rw [command, command'] at told; cases told
  | set name value =>
    cases command' : i'.command with
    | set name' value' =>
      rw [command, command'] at told
      obtain ⟨rfl, values⟩ := Command.set.inj told
      refine set_agree style path s s' command command' fun other => ?_
      rwa [if_neg other, if_neg other] at values
    | _ => rw [command, command'] at told; cases told
  | init =>
    cases command' : i'.command with
    | init =>
      have start : shown s = shown s' := by
        show shown s.hideToken = shown s'.hideToken
        rw [same]
      rw [Program.execute_init command, Program.execute_init command']
      exact .print ((interview_agree _ start).bind fun _ _ _ _ => saving_agree ..)
    | _ => rw [command, command'] at told; cases told

/-- Nothing of the token is printed. Two runs of a command on settings that differ in the token that
is kept, given or typed alone print the same and end alike, as long as their hosts treat files
alike. It does not even matter whether one of them is typed an empty token. -/
theorem token_untold {σ τ : Type} {host : Host σ} {host' : Host τ}
    {alike : List Question → σ → τ → Prop} (hosts : Alike host host' alike) {t : σ} {t' : τ}
    (start : alike Question.all t t') (style : Style) (path : String) {s s' : Settings}
    (same : s.hideToken = s'.hideToken) {i i' : Invocation}
    (told : i.command.hideToken = i'.command.hideToken) (config : i.command.isConfig) :
    let command := (Program.execute style path s i).run
    let command' := (Program.execute style path s' i').run
    (command.run host t).1 = (command'.run host' t').1 ∧
      Event.printed (Hosted.events host command t) =
        Event.printed (Hosted.events host' command' t') := by
  obtain ⟨results, texts⟩ := (execute_agree style path same told config).run_eq hosts start
  exact ⟨results, by rw [Event.printed, Event.printed, texts]⟩

/-- A host where some lines are typed. -/
def typist : Host (List String) := fun effect lines =>
  match effect with
  | .readFile _ => (.error .missing, lines)
  | .readSettings => (.ok none, lines)
  | .writeSettings _ => (.ok (), lines)
  | .readLine => (lines.headD "", lines.tail)
  | .print _ => ((), lines)
  | .send _ => (none, lines)

/-- The lines that answer some questions are the same but for the token. -/
def SameAnswers : List Question → List String → List String → Prop
  | [], _, _ => True
  | question :: rest, lines, lines' =>
    (question ≠ .token → lines.headD "" = lines'.headD "") ∧
      SameAnswers rest lines.tail lines'.tail

theorem typists_alike : Alike typist typist SameAnswers :=
  ⟨fun _ same => same, fun _ _ same => ⟨rfl, same⟩, fun same => same⟩

/-- Settings with a token. -/
def withToken (token : String) : Settings := { credentials := some ⟨some token⟩ }

/-- Answers that keep everything but the server and the token. -/
def answersWith (token : String) : List String := ["http://kc\n", "\n", "\n", token ++ "\n"]

theorem typed_tokens_untold :
    SameAnswers Question.all (answersWith "one") (answersWith "two") ∧
    (withToken "old").hideToken = (withToken "older").hideToken ∧
    Event.printed (Hosted.events typist (Program.execute {} "kc.toml" (withToken "old")
        ⟨none, none, .table, false, .init⟩).run (answersWith "one")) =
      Event.printed (Hosted.events typist (Program.execute {} "kc.toml" (withToken "older")
        ⟨none, none, .table, false, .init⟩).run (answersWith "two")) := by
  have answers : SameAnswers Question.all (answersWith "one") (answersWith "two") :=
    ⟨fun _ => rfl, fun _ => rfl, fun _ => rfl, fun other => absurd rfl other, trivial⟩
  have kept : (withToken "old").hideToken = (withToken "older").hideToken := rfl
  have told := token_untold typists_alike answers {} "kc.toml" kept
    (i := ⟨none, none, .table, false, .init⟩) rfl rfl
  exact ⟨answers, kept, told.2⟩

end Configure

end UserFederation
