import UserFederation.Proofs.Convergence
import UserFederation.Run.Script

/-! The bind credential of a declaration stays between the run and the service. Two runs whose
declarations differ in the credential only send it with the change of the federation, and are alike
in everything else that they say and report (`secret_noninterference`). -/

namespace UserFederation

open Component Server

/-! ### What is shown -/

/-- Of two fields of one key, only the later counts. -/
theorem object_of_later (key : String) (x x' y : Json) (l₁ l₂ l₃ : List (String × Json)) :
    Json.object (l₁ ++ [(key, x)] ++ l₂ ++ [(key, y)] ++ l₃) =
      Json.object (l₁ ++ [(key, x')] ++ l₂ ++ [(key, y)] ++ l₃) := by
  have single : ∀ (z : Json) (k : String), (SortedMap.ofList [(key, z)]).get? k =
      if k = key then some z else none := fun z k => SortedMap.get?_insert _ _ _ _
  refine congrArg (fun m : SortedMap Json => Json.obj m.entries) (SortedMap.ext_get? fun k => ?_)
  simp only [SortedMap.get?_ofList_append, single]
  by_cases hk : k = key <;> simp [hk]

theorem firstValues_hideCredential (config : WireConfig) :
    WireConfig.firstValues (hideCredential config) =
      maskCredential (WireConfig.firstValues config) := by
  refine SortedMap.ext_get? fun key => ?_
  have here : (WireConfig.firstValues config).contains bindCredentialKey =
      config.contains bindCredentialKey := by
    simp [SortedMap.contains, WireConfig.firstValues, SortedMap.get?_mapValues]
  unfold maskCredential hideCredential
  rw [here]
  split
  · simp only [WireConfig.firstValues, SortedMap.get?_mapValues, SortedMap.get?_insert]
    split <;> rfl
  · rfl

/-- A masked rendering shows what a server does. -/
theorem renderConfig_masked (config : WireConfig) :
    renderConfig true config = renderConfig false (hideCredential config) := by
  simp only [renderConfig, firstValues_hideCredential, if_true, Bool.false_eq_true, if_false]

theorem object_renderedFields (c : Component) (l : List (String × Json)) :
    Json.object (c.renderedFields true ++ l) =
      Json.object ((redact c).renderedFields false ++ l) := by
  have fields : ∀ c : Component, c.jsonFields = jsonFields { c with config := none } ++
      c.config.toList.map fun config => ("config", configJson config) := by
    intro c
    simp [jsonFields]
  unfold renderedFields
  rw [fields c, fields (redact c), redact_eq, mapConfig]
  cases c.config with
  | none => rfl
  | some config =>
    simp only [Option.map_some, Option.toList_some, List.map_cons, List.map_nil,
      renderConfig_masked]
    exact object_of_later _ _ _ _ _ _ _

variable {c c' : Component} {f f' : Federation} {cs cs' : Changeset}

theorem render_congr (same : redact f.component = redact f'.component)
    (mappers : f.mappers = f'.mappers) : f.render = f'.render := by
  rw [Federation.render, Federation.render, object_renderedFields, object_renderedFields, same,
    mappers]

theorem Changeset.render_congr (rest : cs' = { cs with config := cs'.config })
    (same : cs.config.map hideCredential = cs'.config.map hideCredential) :
    cs.render = cs'.render := by
  have shown : cs.config.map (renderConfig true) = cs'.config.map (renderConfig true) := by
    have masked := congrArg (Option.map (renderConfig false)) same
    simpa only [Option.map_map, Function.comp_def, ← renderConfig_masked] using masked
  rw [rest]
  rw [render_eq, render_eq]
  unfold jsonWith changes
  rw [List.map_filterMap, List.map_filterMap]
  refine congrArg Json.object (List.filterMap_congr fun field _ => ?_)
  cases field with
  | config =>
    simp only [get?, Option.map_map, Function.comp_def, Change.jsonWith]
    have := congrArg (Option.map fun value => (Federation.Field.config.wireName, value)) shown
    simpa only [Option.map_map, Function.comp_def] using this
  | id | name | providerId | providerType | parentId | mappers => rfl

/-- Components that look alike to a server are alike without their bind credentials. -/
theorem erase_congr (same : redact c = redact c') :
    c.mapConfig (·.erase bindCredentialKey) = c'.mapConfig (·.erase bindCredentialKey) := by
  -- Both are what a server shows, without the mask.
  have erased : ∀ c : Component, c.mapConfig (·.erase bindCredentialKey) =
      (redact c).mapConfig (·.erase bindCredentialKey) := by
    intro c
    refine Component.ext rfl rfl rfl rfl rfl (config_ext ?_ fun key => ?_) rfl
    · rw [isSome_config_mapConfig, isSome_config_mapConfig, isSome_config_redact]
    · rw [configList?_erase, configList?_erase, configList?_redact]
      split <;> simp [*]
  rw [erased c, erased c', same]

/-! ### Declarations that differ in their credential -/

/-- A declaration with the bind credential `v`. Any two declarations that are equal except for the
credential that they specify are of this form. -/
def Declaration.setCredential (d : Declaration) (v : Scalar) : Declaration :=
  { d with config := some ((d.config.getD .empty).insert bindCredentialKey (some v)) }

variable {d : Declaration} {v w : Scalar} {before : Option Federation} {existing : Federation}
  {base : Component}

theorem configList?_setCredential (key : String) :
    (d.setCredential v).component.configList? key =
      if key = bindCredentialKey then some [v.encode] else d.component.configList? key := by
  change (DeclaredConfig.encode ((d.config.getD .empty).insert bindCredentialKey (some v))).get? key =
    if key = bindCredentialKey then _ else (d.config.map DeclaredConfig.encode).bind (·.get? key)
  rw [DeclaredConfig.encode, SortedMap.get?_filterMap, SortedMap.get?_insert]
  split
  · rfl
  · cases d.config with
    | none => rfl
    | some config =>
      rw [Option.map_some, Option.bind_some, DeclaredConfig.encode, SortedMap.get?_filterMap]
      rfl

/-- Laid over the same component, two credentials look alike to a server. -/
theorem redact_setCredential (base : Component) (d : Declaration) (v w : Scalar) :
    redact (base.mergedWith (d.setCredential v).component) =
      redact (base.mergedWith (d.setCredential w).component) := by
  refine Component.ext rfl rfl rfl rfl rfl (config_ext rfl fun key => ?_) rfl
  simp only [configList?_redact, configList?_mergedWith, configList?_setCredential]
  split <;> simp

theorem mergedWith_setCredential_ne (other : base.configList? bindCredentialKey ≠ some [v.encode]) :
    (base.mergedWith (d.setCredential v).component).config ≠ base.config := by
  intro same
  have lists : (base.mergedWith (d.setCredential v).component).configList? bindCredentialKey =
      base.configList? bindCredentialKey :=
      congrArg (fun config : Option WireConfig => config.bind (·.get? bindCredentialKey)) same
  rw [configList?_mergedWith, configList?_setCredential, if_pos rfl, Option.some_or] at lists
  exact other lists.symm

theorem changesWith_setCredential_config {mappers : Option (List Component)}
    (other : (foundComponent before).configList? bindCredentialKey ≠ some [v.encode]) :
    (changesWith (d.setCredential v) before mappers).config =
      ((foundComponent before).mergedWith (d.setCredential v).component).config :=
  if_neg (mergedWith_setCredential_ne other)

/-- The changes look alike in a report. -/
theorem render_changesWith_setCredential {mappers : Option (List Component)}
    (other : ∀ u ∈ [v, w],
      (foundComponent before).configList? bindCredentialKey ≠ some [u.encode]) :
    (changesWith (d.setCredential v) before mappers).render =
      (changesWith (d.setCredential w) before mappers).render := by
  refine Changeset.render_congr rfl ?_
  rw [changesWith_setCredential_config (other v (by simp)),
    changesWith_setCredential_config (other w (by simp))]
  exact congrArg Component.config (redact_setCredential (foundComponent before) d v w)

/-- Where the credential always counts, another one than the one that is shown needs an update. -/
theorem needsUpdate_setCredential_always (mappers : List Component)
    (other : existing.component.configList? bindCredentialKey ≠ some [v.encode]) :
    Federation.needsUpdate ⟨existing.component.mergedWith (d.setCredential v).component, mappers⟩
      existing .always = true := by
  refine decide_eq_true fun same => mergedWith_setCredential_ne (d := d) other ?_
  exact congrArg (fun f : Federation => f.component.config) same

/-- Whether an update is needed does not depend on the credential. -/
theorem needsUpdate_setCredential (mappers : List Component)
    (other : ∀ u ∈ [v, w], existing.component.configList? bindCredentialKey ≠ some [u.encode])
    (policy : CredentialPolicy) :
    Federation.needsUpdate ⟨existing.component.mergedWith (d.setCredential v).component, mappers⟩
        existing policy =
      Federation.needsUpdate ⟨existing.component.mergedWith (d.setCredential w).component, mappers⟩
        existing policy := by
  cases policy with
  | always =>
    rw [needsUpdate_setCredential_always mappers (other v (by simp)),
      needsUpdate_setCredential_always mappers (other w (by simp))]
  | onlyIndirect =>
    unfold Federation.needsUpdate Federation.withoutCredential
    simp only [erase_congr (redact_setCredential existing.component d v w)]

/-! ### Runs -/

/-- A call as it looks when the bind credential in its payload is hidden. -/
def Call.blank : Call → Call
  | .create c realm => .create (redact c) realm
  | .update c realm => .update (redact c) realm
  | call => call

/-- Hides the bind credential in the first change, which is that of the federation. The payloads for
mappers stay as they are. -/
def blankFirst : List Call → List Call
  | [] => []
  | call :: rest => if call.isMutation then call.blank :: rest else call :: blankFirst rest

theorem blankFirst_append {reads : List Call} (h : ∀ call ∈ reads, call.isMutation = false)
    (calls : List Call) : blankFirst (reads ++ calls) = reads ++ blankFirst calls := by
  induction reads with
  | nil => rfl
  | cons call reads ih =>
    rw [List.cons_append, blankFirst, h call List.mem_cons_self, if_neg Bool.false_ne_true,
      ih fun call' member => h call' (List.mem_cons_of_mem _ member), List.cons_append]

namespace Dialogue

variable {σ α : Type} {service : Service σ}

/-- A service that answers without a look at bind credentials. -/
structure Blind (service : Service σ) : Prop where
  create : ∀ (c c' : Component) realm s, redact c = redact c' →
    service (.create c realm) s = service (.create c' realm) s
  update : ∀ (c c' : Component) realm s, redact c = redact c' →
    service (.update c realm) s = service (.update c' realm) s

/-- Two programs are equal, but may open with changes that differ in a bind credential. -/
inductive Veiled : Dialogue α → Dialogue α → Prop
  | refl (p : Dialogue α) : Veiled p p
  | create {c c' : Component} (realm : String) (next : Component → Dialogue α)
    (same : redact c = redact c') : Veiled (ask (.create c realm) next) (ask (.create c' realm) next)
  | update {c c' : Component} (realm : String) (next : Unit → Dialogue α)
    (same : redact c = redact c') : Veiled (ask (.update c realm) next) (ask (.update c' realm) next)

variable {p p' : Dialogue α}

theorem Veiled.run (h : Veiled p p') (blind : Blind service) (s : σ) :
    p.run service s = p'.run service s := by
  cases h with
  | refl => rfl
  | @create c c' realm next same =>
    have answers := blind.create c c' realm s same
    rcases hc : service (.create c' realm) s with ⟨_ | reply, s'⟩ <;>
      simp only [run_ask, answers, hc]
  | @update c c' realm next same =>
    have answers := blind.update c c' realm s same
    rcases hc : service (.update c' realm) s with ⟨_ | reply, s'⟩ <;>
      simp only [run_ask, answers, hc]

theorem Veiled.calls (h : Veiled p p') (blind : Blind service) (s : σ) :
    blankFirst ((p.exchanges service s).map (·.call)) =
      blankFirst ((p'.exchanges service s).map (·.call)) := by
  have first : ∀ (c c' : Call) (rest : List Call), c.isMutation = true → c'.isMutation = true →
      c.blank = c'.blank → blankFirst (c :: rest) = blankFirst (c' :: rest) := by
    intro c c' rest mutates mutates' same
    simp only [blankFirst, mutates, mutates', if_true, same]
  cases h with
  | refl => rfl
  | @create c c' realm next same =>
    have answers := blind.create c c' realm s same
    have blanked : (Call.create c realm).blank = (Call.create c' realm).blank :=
      congrArg (Call.create · realm) same
    rcases hc : service (.create c' realm) s with ⟨_ | reply, s'⟩ <;>
      simp only [exchanges_ask, answers, hc, List.map_cons] <;> exact first _ _ _ rfl rfl blanked
  | @update c c' realm next same =>
    have answers := blind.update c c' realm s same
    have blanked : (Call.update c realm).blank = (Call.update c' realm).blank :=
      congrArg (Call.update · realm) same
    rcases hc : service (.update c' realm) s with ⟨_ | reply, s'⟩ <;>
      simp only [exchanges_ask, answers, hc, List.map_cons] <;> exact first _ _ _ rfl rfl blanked

end Dialogue

namespace Reconcile

open Dialogue

variable {σ : Type} {mode : RunMode} {desired desired' : Federation} {outcome : Outcome}

theorem create_veiled (same : redact desired.component = redact desired'.component)
    (mappers : desired.mappers = desired'.mappers) :
    Veiled (create d mode desired outcome) (create d mode desired' outcome) := by
  cases apply : mode.dryRun with
  | true =>
    have label : desired.component.label = desired'.component.label :=
      show (redact desired.component).label = (redact desired'.component).label from
        congrArg Component.label same
    unfold create
    rw [apply, render_congr same mappers, label]
    exact .refl _
  | false =>
    rw [create_apply apply, create_apply apply, mappers]
    exact .create _ _ same

theorem update_veiled (same : redact desired.component = redact desired'.component)
    (mappers : desired.mappers = desired'.mappers)
    (needed : desired.needsUpdate existing d.credentialPolicy =
      desired'.needsUpdate existing d.credentialPolicy) :
    Veiled (update d mode existing desired outcome) (update d mode existing desired' outcome) := by
  cases hid : existing.component.id with
  | none =>
    have missing : existing.component.existingId = .error (.remote .existingWithoutId) := by
      rw [Component.existingId, hid]
    unfold update
    rw [missing]
    exact .refl _
  | some f =>
    cases need : desired'.needsUpdate existing d.credentialPolicy with
    | false =>
      rw [update_idle hid (needed.trans need), update_idle hid need, upToDate, upToDate,
        render_congr same mappers]
      exact .refl _
    | true =>
      cases apply : mode.dryRun with
      | true =>
        unfold update
        rw [needed, need, apply, render_congr same mappers]
        exact .refl _
      | false =>
        rw [update_busy hid apply (needed.trans need), update_busy hid apply need, mappers]
        exact .update _ _ same

theorem conclude_veiled {mappers : Option (List Component)}
    (other : ∀ u ∈ [v, w],
      (foundComponent before).configList? bindCredentialKey ≠ some [u.encode]) :
    Veiled (conclude d mode before (changesWith (d.setCredential v) before mappers))
      (conclude d mode before (changesWith (d.setCredential w) before mappers)) := by
  have reported : report before (changesWith (d.setCredential v) before mappers) =
      report before (changesWith (d.setCredential w) before mappers) := by
    rw [report, report, render_changesWith_setCredential other]
  unfold conclude
  rw [reported]
  cases before with
  | none =>
    cases d.state with
    | absent => exact .refl _
    | present =>
      refine create_veiled ?_ ?_ <;> rw [applyTo_changesWith, applyTo_changesWith]
      exact redact_setCredential _ d v w
  | some existing =>
    cases d.state with
    | absent => exact .refl _
    | present =>
      refine update_veiled ?_ ?_ ?_ <;> rw [applyTo_changesWith, applyTo_changesWith]
      · exact redact_setCredential _ d v w
      · exact needsUpdate_setCredential _ other _

/-- The mappers that a declaration asks for, if it lists any. -/
def mappersToBe (d : Declaration) (before : Option Federation) :
    Except Failure (Option (List Component)) :=
  match d.mapperComponents with
  | none => .ok none
  | some ds =>
    match checkMappersSupported (d.providerId.or (foundComponent before).providerId) ds.length,
      Mapper.target ds (foundMappers before) d.prune with
    | .error e, _ => .error e
    | .ok _, .error e => .error e
    | .ok _, .ok target => .ok (some target)

theorem of_eq_map (d : Declaration) (before : Option Federation) :
    Changeset.of d before = (mappersToBe d before).map (changesWith d before) := by
  rw [of_eq, mappersToBe]
  cases d.mapperComponents with
  | none => rfl
  | some ds =>
    simp only
    cases checkMappersSupported (d.providerId.or (foundComponent before).providerId) ds.length with
    | error e => rfl
    | ok _ => cases Mapper.target ds (foundMappers before) d.prune <;> rfl

/-- What a run does once the federation was looked for. -/
def proceed (d : Declaration) (mode : RunMode) (found : Option Federation) : Dialogue Outcome :=
  (lift (Changeset.of d (found.map Federation.undoEcho))).bind fun changes =>
    conclude d mode (found.map Federation.undoEcho) changes

theorem reconcile_eq_proceed (d : Declaration) (mode : RunMode) :
    reconcile d mode = (lift d.validate).bind fun _ =>
      (Federation.resolve d.realm d.id d.name).bind (proceed d mode) := by
  rw [reconcile_eq, survey]
  simp only [bind_assoc, done_bind]
  rfl

theorem update_with (config : Option DeclaredConfig) (mappers : Option (List MapperDeclaration)) :
    update { d with config, mappers } mode existing desired outcome =
      update d mode existing desired outcome := by
  unfold update
  -- The type of the last answer speaks of the declaration, so the two sides agree case by case only.
  refine congrArg (Dialogue.bind _) (funext fun f => congrArg (ite _ _) (congrArg (ite _ _) ?_))
  refine congrArg (Dialogue.bind _) (funext fun _ => congrArg (Dialogue.bind _) (funext fun _ => ?_))
  refine congrArg (Dialogue.bind _) (funext fun found => ?_)
  cases found <;> rfl

/-- Once the changes are worked out, the config and the mappers of a declaration do not count. -/
theorem conclude_with (config : Option DeclaredConfig) (mappers : Option (List MapperDeclaration))
    {changes : Changeset} :
    conclude { d with config, mappers } mode before changes = conclude d mode before changes := by
  unfold conclude
  generalize same : ({ d with config, mappers } : Declaration) = d'
  have state : d'.state = d.state := by rw [← same]
  rw [state]
  cases before with
  | none => cases d.state <;> subst same <;> rfl
  | some existing =>
    cases d.state with
    | absent =>
      subst same
      rfl
    | present =>
      subst same
      exact update_with config mappers

theorem conclude_setCredential {changes : Changeset} :
    conclude (d.setCredential v) mode before changes = conclude d mode before changes :=
  conclude_with _ d.mappers

theorem proceed_veiled {found : Option Federation}
    (other : ∀ existing ∈ found, ∀ u ∈ [v, w],
      existing.component.configList? bindCredentialKey ≠ some [u.encode]) :
    Veiled (proceed (d.setCredential v) mode found) (proceed (d.setCredential w) mode found) := by
  have normalized : ∀ u ∈ [v, w], (foundComponent (found.map Federation.undoEcho)).configList?
      bindCredentialKey ≠ some [u.encode] := by
    intro u hu
    cases found with
    | none => exact nofun
    | some existing =>
      change existing.component.undoEcho.configList? bindCredentialKey ≠ _
      rw [configList?_undoEcho_credential]
      exact other existing rfl u hu
  have asks : ∀ u, mappersToBe (d.setCredential u) (found.map Federation.undoEcho) =
    mappersToBe d (found.map Federation.undoEcho) := fun _ => rfl
  unfold proceed
  simp only [of_eq_map, asks, conclude_setCredential]
  cases mappersToBe d (found.map Federation.undoEcho) with
  | error e => exact .refl _
  | ok mappers =>
    simp only [Except.map, lift, done_bind]
    exact conclude_veiled normalized

/-- Runs of declarations that differ in the bind credential end alike, and make the same calls but
for the credential that is sent with the change of the federation, unless the federation that exists
shows one of the two credentials. -/
theorem secret_noninterference {service : Service σ} (blind : Blind service) (s : σ)
    (d : Declaration) (v w : Scalar) (mode : RunMode)
    (other : ∀ found s', (Federation.resolve d.realm d.id d.name).run service s =
      (.ok (some found), s') →
        ∀ u ∈ [v, w], found.component.configList? bindCredentialKey ≠ some [u.encode]) :
    let one := (reconcile (d.setCredential v) mode).runLogged service s
    let two := (reconcile (d.setCredential w) mode).runLogged service s
    one.1 = two.1 ∧ blankFirst one.2.2 = blankFirst two.2.2 := by
  have reads : ∀ call ∈ ((Federation.resolve d.realm d.id d.name).exchanges service s).map (·.call),
      call.isMutation = false := by
    intro call member
    obtain ⟨x, hx, rfl⟩ := List.mem_map.mp member
    exact (resolve_reads d.realm d.id d.name).exchanges s x hx
  have opening : ∀ u, reconcile (d.setCredential u) mode = (lift d.validate).bind fun _ =>
      (Federation.resolve d.realm d.id d.name).bind (proceed (d.setCredential u) mode) :=
    fun u => reconcile_eq_proceed (d.setCredential u) mode
  -- The look-up is the same in both runs, and what it finds decides how they go on.
  simp only [runLogged_eq, opening, run_bind, exchanges_bind, run_lift, exchanges_lift,
    List.nil_append]
  cases d.validate with
  | error e => exact ⟨rfl, rfl⟩
  | ok _ =>
    rcases hr : (Federation.resolve d.realm d.id d.name).run service s with ⟨e | found, s'⟩
    · simp only [hr, and_self]
    · have veiled : Veiled (proceed (d.setCredential v) mode found)
          (proceed (d.setCredential w) mode found) := by
        refine proceed_veiled fun existing there => ?_
        cases there
        exact other existing s' hr
      simp only [hr, List.map_append, blankFirst_append reads, veiled.run blind s',
        veiled.calls blind s', and_self]

end Reconcile

/-- A scripted service does not look at what it is sent. -/
theorem Script.blind : Dialogue.Blind Script.answer where
  create c c' realm script _ := by
    cases script with
    | nil => rfl
    | cons reply rest => cases reply <;> rfl
  update c c' realm script _ := by
    cases script with
    | nil => rfl
    | cons reply rest => cases reply <;> rfl

namespace Server.Sample

/-- A federation as it is shown, with the mask in place of its credential. -/
def masked : Component := people.setConfig bindCredentialKey secretMask

/-- The federation is found, updated and read again. -/
def maskedFound : Script :=
  [.component masked, .components [], .nothing, .component masked, .components []]

end Server.Sample

open Dialogue Server.Sample in
theorem Reconcile.secret_noninterference_bare :
    let one := (reconcile (bare.setCredential (.text "one")) {}).runLogged Script.answer maskedFound
    let two := (reconcile (bare.setCredential (.text "two")) {}).runLogged Script.answer maskedFound
    one.1 = two.1 ∧ blankFirst one.2.2 = blankFirst two.2.2 := by
  refine secret_noninterference Script.blind maskedFound bare _ _ _ fun found s' h => ?_
  have resolved : (Federation.resolve bare.realm bare.id bare.name).run Script.answer maskedFound =
      (.ok (some (.ofParts masked (Component.sortByName []))), maskedFound.drop 2) := rfl
  cases resolved.symm.trans h
  decide

end UserFederation
