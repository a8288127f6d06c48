import RoadVisionAI.Engines.Equiv.FirstMatch
import RoadVisionAI.Python.Equiv.Number
import RoadVisionAI.Python.Equiv.Template

/-!
# The exceptions of `evaluate`

The docstring promises that a malformed rule raises `RuleFormatError`.  What is turned into it is
text that is no JSON object and a strategy that is none; every other conversion raises its own
exception.  `SoundCondition` and `SoundAction` say what a rule must hold for that not to happen, as
far as `evaluate` reads it; `closes_iff` says that these rule bases are the ones on which it keeps
the promise.
-/

namespace RoadVisionAI.RuleEngine

open Python

variable {fieldFormat : FieldFormat} {ctx : AnalysisContext}

/-- The exception is a `RuleFormatError`. -/
def IsFormatError (exc : PyException) : Prop := ∃ msg, exc = ruleFormatError msg

theorem PyException.BuiltIn.not_isFormatError {exc : PyException} (h : exc.BuiltIn) :
    ¬ IsFormatError exc := by
  rintro ⟨msg, rfl⟩
  exact h _ _ rfl

/-- What raises exceptions of the language only must not raise. -/
theorem closes_iff_ok {α : Type} {x : Except PyException α} (h : RaisesOnly PyException.BuiltIn x) :
    RaisesOnly IsFormatError x ↔ ∃ a, x = .ok a :=
  raisesOnly_iff_ok fun e he => PyException.BuiltIn.not_isFormatError (h e he)

/-! ### Texts -/

/-- `json.loads` decodes the text or finds that it is no JSON: neither has an integer more digits
than `int` takes, nor is the nesting too deep. -/
def Loadable (raw : String) : Prop :=
  (∀ msg, loads raw ≠ .error (.valueError msg)) ∧ ∀ msg, loads raw ≠ .error (.recursionError msg)

theorem loads_error {raw : String} {e : PyException} (h : loads raw = .error e) :
    (∃ msg lineno colno pos, e = .jsonDecodeError msg lineno colno pos) ∨
      (∃ msg, e = .valueError msg) ∨ ∃ msg, e = .recursionError msg := by
  unfold loads at h
  dsimp only at h
  split at h
  · exact Or.inl ⟨_, _, _, _, (Except.error.inj h).symm⟩
  · split at h
    · cases h
    next scanError _ =>
      obtain rfl := Except.error.inj h
      cases scanError with
      | decode msg rest => exact Or.inl ⟨_, _, _, _, rfl⟩
      | intDigits digits => exact Or.inr (Or.inl ⟨_, rfl⟩)
      | recursion => exact Or.inr (Or.inr ⟨_, rfl⟩)

theorem parse_closes_iff {raw code kind : String} :
    RaisesOnly IsFormatError (parse raw code kind) ↔ Loadable raw := by
  unfold parse Loadable
  cases hloads : loads raw with
  | ok value =>
    refine iff_of_true ?_ ⟨nofun, nofun⟩
    cases value with
    | obj fields => exact raisesOnly_ok fields
    | _ =>
      intro e he
      exact ⟨_, (Except.error.inj he).symm⟩
  | error exc =>
    rcases loads_error hloads with ⟨msg, lineno, colno, pos, rfl⟩ | ⟨msg, rfl⟩ | ⟨msg, rfl⟩
    · refine iff_of_true ?_ ⟨nofun, nofun⟩
      intro e he
      exact ⟨_, (Except.error.inj he).symm⟩
    · refine iff_of_false (fun h => ?_) (fun h => h.1 msg rfl)
      obtain ⟨_, hne⟩ := h _ rfl
      cases hne
    · refine iff_of_false (fun h => ?_) (fun h => h.2 msg rfl)
      obtain ⟨_, hne⟩ := h _ rfl
      cases hne

/-! ### Conditions -/

/-- The comparison of the field is defined on the value. -/
def Field.Convertible (ctx : AnalysisContext) : Field → Json → Prop
  | pciMin, v | pciMax, v => FloatLike v
  | severityIn, v | priorityIn, v => Container v
  | dominantTypeIn, v => ctx.dominantDamageType = none ∨ Container v
  | minDetections, v => IntLike v

/-- `_matches` comes to the field: those before it are absent or pass. -/
def Reaches (ctx : AnalysisContext) (cond : Fields) (field : Field) : Prop :=
  ∃ before after, Field.all = before ++ field :: after ∧
    ∀ earlier ∈ before, ∀ v, cond.lookup earlier.key = some v → earlier.test ctx v = .ok true

/-- The condition is no JSON object, or its fields can be compared as far as they are. -/
structure SoundCondition (ctx : AnalysisContext) (rule : Rule) : Prop where
  loadable : Loadable rule.condition
  convertible : ∀ cond, parse rule.condition rule.code "condition" = .ok cond →
    ∀ field v, Reaches ctx cond field → cond.lookup field.key = some v → field.Convertible ctx v

theorem Field.builtIn_test (field : Field) (v : Json) :
    RaisesOnly PyException.BuiltIn (field.test ctx v) := by
  cases field with
  | pciMin => exact (builtIn_toFloat v).bind fun _ _ => raisesOnly_ok _
  | pciMax => exact (builtIn_toFloat v).bind fun _ _ => raisesOnly_ok _
  | severityIn => exact builtIn_hasMember v _
  | priorityIn => exact builtIn_hasMember v _
  | dominantTypeIn =>
    simp only [test]
    split
    · exact raisesOnly_ok false
    · exact builtIn_hasMember v _
  | minDetections => exact (builtIn_toInt v).bind fun _ _ => raisesOnly_ok _

theorem Field.test_isOk_iff {field : Field} {v : Json} :
    (∃ b, field.test ctx v = .ok b) ↔ field.Convertible ctx v := by
  cases field with
  | pciMin => exact bind_pure_isOk_iff.trans toFloat_isOk_iff
  | pciMax => exact bind_pure_isOk_iff.trans toFloat_isOk_iff
  | severityIn => exact hasMember_isOk_iff
  | priorityIn => exact hasMember_isOk_iff
  | dominantTypeIn =>
    simp only [test, Convertible]
    split
    next hnone => exact iff_of_true ⟨false, rfl⟩ (Or.inl hnone)
    next dominant hdominant =>
      rw [hasMember_isOk_iff, hdominant]
      simp
  | minDetections => exact bind_pure_isOk_iff.trans toInt_isOk_iff

/-- The splits of a list at one of its items. -/
theorem forall_split_cons {α : Type} {P : List α → α → Prop} {a : α} {l : List α} :
    (∀ before x after, a :: l = before ++ x :: after → P before x) ↔
      P [] a ∧ ∀ before x after, l = before ++ x :: after → P (a :: before) x := by
  constructor
  · intro h
    refine ⟨h [] a l rfl, fun before x after hl => ?_⟩
    exact h (a :: before) x after (by rw [hl, List.cons_append])
  · rintro ⟨hhead, htail⟩ before x after hsplit
    cases before with
    | nil =>
      obtain ⟨rfl, -⟩ := List.cons.inj hsplit
      exact hhead
    | cons b before =>
      obtain ⟨rfl, hl⟩ := List.cons.inj hsplit
      exact htail before x after hl

/-- A conjunction of tests raises what the first test that does not pass raises. -/
theorem raisesOnly_allM_iff {α ε : Type} {P : ε → Prop} {test : α → Except ε Bool} {l : List α} :
    RaisesOnly P (l.allM test) ↔
      ∀ before a after, l = before ++ a :: after → (∀ a' ∈ before, test a' = .ok true) →
        RaisesOnly P (test a) := by
  induction l with
  | nil => exact iff_of_true (raisesOnly_ok true) fun _ _ _ h => by simp at h
  | cons a l ih =>
    rw [List.allM, raisesOnly_bind_iff, forall_split_cons]
    refine and_congr ?_ ?_
    · exact ⟨fun h _ => h, fun h => h fun _ ha => absurd ha List.not_mem_nil⟩
    · simp only [List.forall_mem_cons]
      constructor
      · rintro h before x after hl ⟨ha, hbefore⟩
        exact ih.mp (h true ha) before x after hl hbefore
      · intro h b hb
        cases b with
        | true => exact ih.mpr fun before x after hl hbefore => h before x after hl ⟨hb, hbefore⟩
        | false => exact raisesOnly_ok false

/-- The test of a field of the condition; an absent one passes. -/
def Field.testIn (ctx : AnalysisContext) (cond : Fields) (field : Field) : Except PyException Bool :=
  match cond.lookup field.key with
  | none => .ok true
  | some v => field.test ctx v

theorem matchesCond_eq (cond : Fields) (ctx : AnalysisContext) :
    matchesCond cond ctx = Field.all.allM (Field.testIn ctx cond) := by
  rw [matchesCond, conditionTests_eq, allM_map]
  rfl

theorem Field.testIn_eq_true_iff {cond : Fields} {field : Field} :
    field.testIn ctx cond = .ok true ↔
      ∀ v, cond.lookup field.key = some v → field.test ctx v = .ok true := by
  unfold testIn
  cases cond.lookup field.key <;> simp

theorem Field.testIn_closes_iff {cond : Fields} {field : Field} :
    RaisesOnly IsFormatError (field.testIn ctx cond) ↔
      ∀ v, cond.lookup field.key = some v → field.Convertible ctx v := by
  unfold testIn
  cases cond.lookup field.key with
  | none => exact iff_of_true (raisesOnly_ok true) nofun
  | some v =>
    simp only [Option.some.injEq, forall_eq']
    rw [closes_iff_ok (field.builtIn_test v), Field.test_isOk_iff]

theorem matchesCond_closes_iff {cond : Fields} :
    RaisesOnly IsFormatError (matchesCond cond ctx) ↔
      ∀ field v, Reaches ctx cond field → cond.lookup field.key = some v →
        field.Convertible ctx v := by
  rw [matchesCond_eq, raisesOnly_allM_iff]
  simp only [Field.testIn_eq_true_iff, Field.testIn_closes_iff]
  constructor
  · rintro h field v ⟨before, after, hsplit, hbefore⟩ hv
    exact h before field after hsplit hbefore v hv
  · intro h before field after hsplit hbefore v hv
    exact h field v ⟨before, after, hsplit, hbefore⟩ hv

theorem SoundCondition.closes_iff {rule : Rule} :
    (RaisesOnly IsFormatError (parse rule.condition rule.code "condition") ∧
        ∀ cond, parse rule.condition rule.code "condition" = .ok cond →
          RaisesOnly IsFormatError (matchesCond cond ctx)) ↔ SoundCondition ctx rule := by
  rw [parse_closes_iff]
  simp only [matchesCond_closes_iff]
  exact ⟨fun ⟨hloads, hfields⟩ => ⟨hloads, hfields⟩, fun ⟨hloads, hfields⟩ => ⟨hloads, hfields⟩⟩

/-! ### Actions -/

/-- The arguments `_render` passes. -/
def renderArgs (ctx : AnalysisContext) : List (String × FormatArg) :=
  [("pci", .str (fixedPoint ctx.pci 2)),
   ("dominant", .str (textOr ctx.dominantDamageType "aucun")),
   ("severity", .str ctx.severityLevel.value),
   ("priority", .str ctx.priorityLevel.value),
   ("detections", .int ctx.totalDetections)]

/-- The justification is a text, a well-formed template once the code stands in it, and the costs
are decimals. -/
structure SoundFields (fieldFormat : FieldFormat) (ctx : AnalysisContext) (code : String)
    (action : Fields) : Prop where
  text : ∀ v, action.lookup "justification" = some v → ∃ template, v = .str template
  template : ∀ template, actionTemplate action code = .ok template →
    WellFormed fieldFormat (renderArgs ctx) template.toList
  costs : ∀ key ∈ ["cost_min_mad", "cost_max_mad"], ∀ v, action.lookup key = some v → DecimalLike v

/-- The action is no JSON object, names no strategy, or its fields can be used. -/
structure SoundAction (fieldFormat : FieldFormat) (ctx : AnalysisContext) (rule : Rule) : Prop where
  loadable : Loadable rule.action
  fields : ∀ action strategy, parse rule.action rule.code "action" = .ok action →
    actionStrategy action rule.code = .ok strategy → SoundFields fieldFormat ctx rule.code action

theorem actionTemplate_closes_iff {action : Fields} {code : String} :
    RaisesOnly IsFormatError (actionTemplate action code) ↔
      ∀ v, action.lookup "justification" = some v → ∃ template, v = .str template := by
  unfold actionTemplate
  cases action.lookup "justification" with
  | none => exact iff_of_true (raisesOnly_ok _) nofun
  | some v =>
    simp only [Option.getD_some, Option.some.injEq, forall_eq']
    cases v with
    | str template => exact iff_of_true (raisesOnly_ok _) ⟨template, rfl⟩
    | _ =>
      refine iff_of_false (fun h => ?_) (by rintro ⟨_, ⟨⟩⟩)
      obtain ⟨_, hne⟩ := h _ rfl
      cases hne

theorem builtIn_actionTemplate (action : Fields) (code : String) :
    RaisesOnly PyException.BuiltIn (actionTemplate action code) := by
  intro e he
  obtain ⟨_, rfl⟩ := actionTemplate_error he
  exact nofun

theorem builtIn_actionCost (action : Fields) (key : String) :
    RaisesOnly PyException.BuiltIn (actionCost action key) := by
  intro e he
  obtain ⟨_, rfl⟩ := actionCost_error he
  exact nofun

theorem actionCost_closes_iff {action : Fields} {key : String} :
    RaisesOnly IsFormatError (actionCost action key) ↔
      ∀ v, action.lookup key = some v → DecimalLike v := by
  rw [closes_iff_ok (builtIn_actionCost action key)]
  unfold actionCost
  cases action.lookup key with
  | none => exact iff_of_true ⟨none, rfl⟩ nofun
  | some v =>
    simp only [Option.some.injEq, forall_eq']
    exact bind_pure_isOk_iff.trans toDecimal_isOk_iff

theorem render_closes_iff {template : String}
    (hformat : ∀ arg field msg, fieldFormat arg field ≠ .error (ruleFormatError msg)) :
    RaisesOnly IsFormatError (render fieldFormat template ctx) ↔
      WellFormed fieldFormat (renderArgs ctx) template.toList := by
  have hother : RaisesOnly (fun e => ¬ IsFormatError e) (render fieldFormat template ctx) := by
    rintro e he ⟨msg, rfl⟩
    rcases strFormat_error he with hmarkup | ⟨arg, field, harg⟩
    · rcases hmarkup with ⟨_, hne⟩ | ⟨_, hne⟩ | ⟨_, hne⟩ <;> cases hne
    · exact hformat arg field msg harg
  exact (raisesOnly_iff_ok hother).trans strFormat_isOk_iff

/-- The strategy is the one field whose errors are all turned into format errors. -/
theorem actionStrategy_closes (action : Fields) (code : String) :
    RaisesOnly IsFormatError (actionStrategy action code) := fun _ he => actionStrategy_error he

theorem decisionOf_closes_iff {rule : Rule}
    (hformat : ∀ arg field msg, fieldFormat arg field ≠ .error (ruleFormatError msg)) :
    RaisesOnly IsFormatError (decisionOf fieldFormat rule ctx) ↔
      SoundAction fieldFormat ctx rule := by
  constructor
  · intro h
    obtain ⟨hparse, h⟩ := raisesOnly_bind_iff.mp h
    refine ⟨parse_closes_iff.mp hparse, fun action strategy haction hstrategy => ?_⟩
    -- past the strategy a step that closes has returned, and the next one is reached
    obtain ⟨-, h⟩ := raisesOnly_bind_iff.mp (h action haction)
    obtain ⟨htext, h⟩ := raisesOnly_bind_iff.mp (h strategy hstrategy)
    obtain ⟨template, htemplate⟩ :=
      (closes_iff_ok (builtIn_actionTemplate action rule.code)).mp htext
    obtain ⟨hrender, h⟩ := raisesOnly_bind_iff.mp (h template htemplate)
    have hwell := (render_closes_iff hformat).mp hrender
    obtain ⟨justification, hjustification⟩ := strFormat_isOk_iff.mpr hwell
    obtain ⟨hmin, h⟩ := raisesOnly_bind_iff.mp (h justification hjustification)
    obtain ⟨costMin, hcostMin⟩ := (closes_iff_ok (builtIn_actionCost action _)).mp hmin
    obtain ⟨hmax, -⟩ := raisesOnly_bind_iff.mp (h costMin hcostMin)
    refine ⟨actionTemplate_closes_iff.mp htext, ?_, ?_⟩
    · intro template' htemplate'
      obtain rfl : template = template' := Except.ok.inj (htemplate.symm.trans htemplate')
      exact hwell
    · intro key hkey
      rcases List.mem_pair.mp hkey with rfl | rfl
      · exact actionCost_closes_iff.mp hmin
      · exact actionCost_closes_iff.mp hmax
  · rintro ⟨hloads, hfields⟩
    refine (parse_closes_iff.mpr hloads).bind fun action haction => ?_
    refine (actionStrategy_closes action rule.code).bind fun strategy hstrategy => ?_
    obtain ⟨htext, htemplate, hcosts⟩ := hfields action strategy haction hstrategy
    refine (actionTemplate_closes_iff.mpr htext).bind fun template hok => ?_
    refine ((render_closes_iff hformat).mpr (htemplate template hok)).bind fun _ _ => ?_
    refine (actionCost_closes_iff.mpr (hcosts _ (by simp))).bind fun _ _ => ?_
    refine (actionCost_closes_iff.mpr (hcosts _ (by simp))).bind fun _ _ => ?_
    exact raisesOnly_ok _

/-! ### The rules in turn -/

theorem evaluateOrdered_cons_closes_iff {rule : Rule} {rules : List Rule} :
    RaisesOnly IsFormatError (evaluateOrdered fieldFormat ctx (rule :: rules)) ↔
      SoundCondition ctx rule ∧
        ((∃ cond, Tests ctx rule cond true) →
          RaisesOnly IsFormatError (decisionOf fieldFormat rule ctx)) ∧
        ((∃ cond, Tests ctx rule cond false) →
          RaisesOnly IsFormatError (evaluateOrdered fieldFormat ctx rules)) := by
  rw [evaluateOrdered, raisesOnly_bind_iff, ← SoundCondition.closes_iff, and_assoc]
  refine and_congr_right fun _ => ?_
  simp only [raisesOnly_bind_iff]
  constructor
  · intro h
    refine ⟨fun cond hcond => (h cond hcond).1, ?_, ?_⟩
    · rintro ⟨cond, hcond, hmatch⟩
      exact (h cond hcond).2 true hmatch
    · rintro ⟨cond, hcond, hmatch⟩
      exact (h cond hcond).2 false hmatch
  · rintro ⟨hcloses, htrue, hfalse⟩ cond hcond
    refine ⟨hcloses cond hcond, fun b hmatch => ?_⟩
    cases b with
    | true => exact htrue ⟨cond, hcond, hmatch⟩
    | false => exact hfalse ⟨cond, hcond, hmatch⟩

theorem evaluateOrdered_closes_iff {rules : List Rule}
    (hformat : ∀ arg field msg, fieldFormat arg field ≠ .error (ruleFormatError msg)) :
    RaisesOnly IsFormatError (evaluateOrdered fieldFormat ctx rules) ↔
      ∀ before rule after, rules = before ++ rule :: after →
        (∀ r ∈ before, ∃ cond, Tests ctx r cond false) →
        SoundCondition ctx rule ∧
          ((∃ cond, Tests ctx rule cond true) → SoundAction fieldFormat ctx rule) := by
  induction rules with
  | nil =>
    obtain ⟨decision, hdecision⟩ := exists_fallbackDecision fieldFormat ctx
    refine iff_of_true ?_ fun _ _ _ h => by simp at h
    rw [evaluateOrdered, hdecision]
    exact raisesOnly_ok decision
  | cons rule rules ih =>
    rw [evaluateOrdered_cons_closes_iff, forall_split_cons, decisionOf_closes_iff hformat, ih,
      ← and_assoc]
    refine and_congr ?_ ?_
    · exact ⟨fun h _ => h, fun h => h fun _ hr => absurd hr List.not_mem_nil⟩
    · simp only [List.forall_mem_cons]
      constructor
      · rintro h before r after hsplit ⟨hrule, hbefore⟩
        exact h hrule before r after hsplit hbefore
      · intro h hrule before r after hsplit hbefore
        exact h before r after hsplit ⟨hrule, hbefore⟩

/-- **Malformed rules.**  `evaluate` decides or raises `RuleFormatError`, and nothing else, exactly
when the rules are sound as far as it reads them: up to the first that matches the conditions, of
that one the action. -/
theorem closes_iff_sound (rules : List Rule) (ctx : AnalysisContext)
    (hformat : ∀ arg field msg, fieldFormat arg field ≠ .error (ruleFormatError msg)) :
    ((∃ decision, evaluate fieldFormat rules ctx = .ok decision) ∨
        ∃ msg, evaluate fieldFormat rules ctx = .error (ruleFormatError msg)) ↔
      ∀ before rule after, ordered rules = before ++ rule :: after →
        (∀ r ∈ before, ∃ cond, Tests ctx r cond false) →
        SoundCondition ctx rule ∧
          ((∃ cond, Tests ctx rule cond true) → SoundAction fieldFormat ctx rule) := by
  rw [← evaluateOrdered_closes_iff hformat, raisesOnly_iff]
  refine or_congr_right ?_
  simp only [IsFormatError]
  constructor
  · rintro ⟨msg, h⟩
    exact ⟨_, ⟨msg, rfl⟩, h⟩
  · rintro ⟨_, ⟨msg, rfl⟩, h⟩
    exact ⟨msg, h⟩

theorem loadable_of_ok {raw : String} {value : Json} (h : loads raw = .ok value) :
    Loadable raw := by
  rw [Loadable, h]
  exact ⟨nofun, nofun⟩

theorem soundCondition_catchAll (action : String) : SoundCondition soundRoad (catchAll action) := by
  have hloads : loads (catchAll action).condition = .ok (.obj []) :=
    loads_eq_ok_of_chars rfl (by decide) (by decide)
  refine ⟨loadable_of_ok hloads, ?_⟩
  intro cond hcond field v _ hv
  rw [parse_eq_ok hloads] at hcond
  obtain rfl : [] = cond := Except.ok.inj hcond
  cases hv

/-- The default justification, with the code in place. -/
def routineTemplate : String := "Règle R050 appliquée."

theorem soundAction_routineAction :
    SoundAction refuseSpecs soundRoad (catchAll routineAction) := by
  refine ⟨loadable_of_ok loads_routineAction, ?_⟩
  intro action strategy haction _
  obtain rfl := Except.ok.inj (parse_routineAction.symm.trans haction)
  have hdefault : actionTemplate
      [("strategy", .str "SURVEILLANCE"), ("estimated_days", .int 1), ("cost_min_mad", .int 500)]
        "R050" = .ok routineTemplate := by
    decide
  refine ⟨nofun, ?_, ?_⟩
  · intro template htemplate
    obtain rfl : routineTemplate = template := Except.ok.inj (hdefault.symm.trans htemplate)
    exact strFormat_isOk_iff.mp ((strFormat_of_plain rfl (by decide)).imp fun _ h => h.1)
  · intro key hkey v hv
    rcases List.mem_pair.mp hkey with rfl | rfl
    · obtain rfl : Json.int 500 = v := Option.some.inj hv
      exact .int 500
    · cases hv

/-- The criterion at a rule base that meets it. -/
theorem closes_iff_sound_routineAction :
    (∃ decision, evaluate refuseSpecs [catchAll routineAction] soundRoad = .ok decision) ∨
      ∃ msg, evaluate refuseSpecs [catchAll routineAction] soundRoad
        = .error (ruleFormatError msg) := by
  refine (closes_iff_sound _ _ refuseSpecs_ne).mpr ?_
  intro before rule after hordered _
  have hrule : rule ∈ ordered [catchAll routineAction] := hordered ▸ List.mem_append_cons_self
  obtain rfl : rule = catchAll routineAction := List.mem_singleton.mp hrule
  exact ⟨soundCondition_catchAll routineAction, fun _ => soundAction_routineAction⟩

/-- A rule whose bound is a list. -/
def listBoundRule : Rule where
  code := "R060"
  name := "Surveillance"
  condition := "\x7b\"pci_min\": []\x7d"
  action := routineAction
  priority := 60
  isActive := true

/-- `float` raises `TypeError`. -/
theorem not_closes_listBoundRule :
    ¬ ((∃ decision, evaluate refuseSpecs [listBoundRule] soundRoad = .ok decision) ∨
      ∃ msg, evaluate refuseSpecs [listBoundRule] soundRoad = .error (ruleFormatError msg)) := by
  have hraises : CondRaises soundRoad listBoundRule
      (.typeError "float() argument must be a string or a real number, not 'list'") :=
    Or.inr ⟨[("pci_min", .arr [])],
      parse_eq_ok (loads_eq_ok_of_chars rfl (by decide) (by decide)) _ _, by decide⟩
  have hordered : ordered [listBoundRule] = [listBoundRule] := by decide
  rw [evaluate, hordered, evaluateOrdered_of_raises hraises]
  rintro (⟨_, h⟩ | ⟨_, h⟩) <;> cases h

end RoadVisionAI.RuleEngine
