import RoadVisionAI.Engines.Equiv.RuleEngine
import RoadVisionAI.Engines.PciEngine
import RoadVisionAI.Engines.SeededRules

/-!
# The seeded rules as a triage

Each of the nine rules is decoded once (`SeededRule` carries the proofs), into a window of
contexts and an action.  `triage` is the table the rules amount to: the class of the index picks a
group, the dominant type and the number of detections a rule of the group.  The first window that
contains a context is that of its `triage` (`triage_first`), so `evaluate` decides by it
(`evaluate_seededRules`), and deadlines and costs are monotone because they are in the table
(`le_of_level_lt`).
-/

namespace RoadVisionAI.RuleEngine

open Python PciEngine

/-! ### Windows -/

/-- The contexts a condition of the seed is about; an absent bound is no restriction. -/
structure Window where
  pciMin : Option ℕ := none
  pciMax : Option ℕ := none
  dominantTypes : Option (List String) := none
  minDetections : Option ℕ := none

namespace Window

/-- The value of a field of the condition. -/
def field (window : Window) : Field → Option Json
  | .pciMin => window.pciMin.map fun n : ℕ => .int n
  | .pciMax => window.pciMax.map fun n : ℕ => .int n
  | .severityIn | .priorityIn => none
  | .dominantTypeIn => window.dominantTypes.map fun names => .arr (names.map .str)
  | .minDetections => window.minDetections.map fun n : ℕ => .int n

/-- The context is in the window. -/
def Contains (window : Window) (ctx : AnalysisContext) : Prop :=
  (∀ n ∈ window.pciMin, (n : ℚ) ≤ ctx.pci) ∧ (∀ n ∈ window.pciMax, ctx.pci < n) ∧
    (∀ names ∈ window.dominantTypes, ∃ dominant ∈ ctx.dominantDamageType, dominant ∈ names) ∧
    ∀ n ∈ window.minDetections, (n : ℤ) ≤ ctx.totalDetections

theorem shape_field {window : Window} {field : Field} {v : Json}
    (h : window.field field = some v) : field.Shape v := by
  cases field with
  | pciMin =>
    obtain ⟨n, -, rfl⟩ := Option.map_eq_some_iff.mp h
    exact Or.inl ⟨n, rfl⟩
  | pciMax =>
    obtain ⟨n, -, rfl⟩ := Option.map_eq_some_iff.mp h
    exact Or.inl ⟨n, rfl⟩
  | severityIn => cases h
  | priorityIn => cases h
  | dominantTypeIn =>
    obtain ⟨names, -, rfl⟩ := Option.map_eq_some_iff.mp h
    exact ⟨names, rfl⟩
  | minDetections =>
    obtain ⟨n, -, rfl⟩ := Option.map_eq_some_iff.mp h
    exact ⟨n, rfl⟩

/-- The documented reading of the condition. -/
theorem contains_iff {window : Window} {cond : Fields} {ctx : AnalysisContext}
    (hcond : ∀ field : Field, cond.lookup field.key = window.field field) :
    CondHolds cond ctx ↔ window.Contains ctx := by
  have hlists : ∀ (names : List String) (name : String),
      Field.Lists (.arr (names.map .str)) name ↔ name ∈ names := by
    intro names name
    constructor
    · rintro ⟨items, hitems, hmem⟩
      rw [← Json.arr.inj hitems] at hmem
      obtain ⟨s, hs, heq⟩ := List.mem_map.mp hmem
      exact Json.str.inj heq ▸ hs
    · exact fun hmem => ⟨_, rfl, List.mem_map_of_mem hmem⟩
  have hfields : CondHolds cond ctx ↔ ∀ field ∈ Field.all, ∀ v, window.field field = some v →
      field.Holds ctx v := by
    simp only [CondHolds, hcond, Field.mem_all, forall_const]
  rw [hfields]
  simp only [Field.all, List.forall_mem_cons, List.not_mem_nil, IsEmpty.forall_iff, implies_true,
    and_true, true_and, field, reduceCtorEq, Option.map_eq_some_iff, forall_exists_index, and_imp,
    forall_apply_eq_imp_iff₂, Field.Holds, Field.boundValue, PyFloat.leRat, PyFloat.gtRat,
    decide_eq_true_eq, hlists, Json.int.injEq, forall_eq', Contains, Option.mem_def,
    Int.cast_natCast]

end Window

/-! ### The rules, decoded -/

/-- A text given in three pieces. -/
theorem loads_eq_ok_of_pieces {a b c : String} {la lb lc : List Char} {value : Json}
    (ha : a = String.ofList la) (hb : b = String.ofList lb) (hc : c = String.ofList lc)
    (hdoc : decode (la ++ lb ++ lc) = .ok value)
    (hbom : (la ++ lb ++ lc).head? ≠ some '\uFEFF') : loads (a ++ b ++ c) = .ok value :=
  loads_eq_ok_of_chars (eq_ofList_of_pieces ha hb hc) hdoc hbom

/-- The arguments of a justification. -/
def justificationArgs : List String := ["pci", "dominant", "severity", "priority", "detections"]

/-- A template with these arguments in place, and without `{code}`. -/
def PlainJustification (cs : List Char) : Prop :=
  plainChars justificationArgs cs.length cs = true ∧
    ∀ rest ∈ cs.tails, ("\x7bcode\x7d".toList.isPrefixOf rest) = false

instance : DecidablePred PlainJustification := fun _ => inferInstanceAs (Decidable (_ ∧ _))

/-- The fields of an action of the seed. -/
def actionFields (strategy : MaintenanceStrategy) (estimatedDays deadlineDays : ℤ)
    (costs : Option (ℤ × ℤ)) (justification : String) : Fields :=
  [("strategy", .str strategy.value), ("estimated_days", .int estimatedDays),
   ("deadline_days", .int deadlineDays)] ++
    (match costs with
      | none => []
      | some (low, high) => [("cost_min_mad", .int low), ("cost_max_mad", .int high)]) ++
    [("justification", .str justification)]

/-- A rule of the seed with what its texts decode to, and the class of the index it is for. -/
structure SeededRule where
  rule : Rule
  level : PriorityLevel
  cond : Fields
  window : Window
  strategy : MaintenanceStrategy
  estimatedDays : ℤ
  deadlineDays : ℤ
  costs : Option (ℤ × ℤ)
  justification : String
  loads_condition : loads rule.condition = .ok (.obj cond)
  lookup_cond : ∀ field : Field, cond.lookup field.key = window.field field
  floatBounds : ∀ entry ∈ cond, FloatBound entry.2
  loads_action : loads rule.action
    = .ok (.obj (actionFields strategy estimatedDays deadlineDays costs justification))
  template : ∃ cs, justification = String.ofList cs ∧ PlainJustification cs

set_option maxRecDepth 4000

/-- `R010_CRITIQUE_RECONSTRUCTION`, decoded. -/
def r010 : SeededRule where
  rule := r010CritiqueReconstruction
  level := .P0_CRITIQUE
  cond := [("pci_max", .int 40)]
  window := { pciMax := some 40 }
  strategy := .RECONSTRUCTION
  estimatedDays := 90
  deadlineDays := 30
  costs := some (1500000, 4000000)
  justification := r010Justification
  loads_condition := loads_eq_ok_of_chars rfl (by decide +kernel) (by decide +kernel)
  lookup_cond field := by cases field <;> rfl
  floatBounds := by decide +kernel
  loads_action := loads_eq_ok_of_pieces rfl rfl rfl (by decide +kernel) (by decide +kernel)
  template := ⟨_, rfl, by decide +kernel, by decide +kernel⟩

/-- `R020_GRAVE_STRUCTUREL_REHABILITATION`, decoded. -/
def r020 : SeededRule where
  rule := r020GraveStructurelRehabilitation
  level := .P1_URGENT
  cond := [("pci_min", .int 40),
    ("pci_max", .int 55),
    ("dominant_type_in", .arr [.str "POTHOLE", .str "ALLIGATOR_CRACK", .str "RUTTING"])]
  window := {
    pciMin := some 40
    pciMax := some 55
    dominantTypes := some ["POTHOLE", "ALLIGATOR_CRACK", "RUTTING"] }
  strategy := .REHABILITATION
  estimatedDays := 45
  deadlineDays := 60
  costs := some (400000, 1200000)
  justification := r020Justification
  loads_condition := loads_eq_ok_of_chars rfl (by decide +kernel) (by decide +kernel)
  lookup_cond field := by cases field <;> rfl
  floatBounds := by decide +kernel
  loads_action := loads_eq_ok_of_pieces rfl rfl rfl (by decide +kernel) (by decide +kernel)
  template := ⟨_, rfl, by decide +kernel, by decide +kernel⟩

/-- `R021_GRAVE_DEFAUT_RESURFACAGE`, decoded. -/
def r021 : SeededRule where
  rule := r021GraveDefautResurfacage
  level := .P1_URGENT
  cond := [("pci_min", .int 40), ("pci_max", .int 55)]
  window := { pciMin := some 40, pciMax := some 55 }
  strategy := .RESURFACAGE
  estimatedDays := 30
  deadlineDays := 90
  costs := some (250000, 700000)
  justification := r021Justification
  loads_condition := loads_eq_ok_of_chars rfl (by decide +kernel) (by decide +kernel)
  lookup_cond field := by cases field <;> rfl
  floatBounds := by decide +kernel
  loads_action := loads_eq_ok_of_pieces rfl rfl rfl (by decide +kernel) (by decide +kernel)
  template := ⟨_, rfl, by decide +kernel, by decide +kernel⟩

/-- `R030_MODERE_SURFACE_RESURFACAGE`, decoded. -/
def r030 : SeededRule where
  rule := r030ModereSurfaceResurfacage
  level := .P2_PLANIFIE
  cond := [("pci_min", .int 55),
    ("pci_max", .int 70),
    ("dominant_type_in", .arr [.str "RAVELLING", .str "RUTTING"])]
  window := {
    pciMin := some 55
    pciMax := some 70
    dominantTypes := some ["RAVELLING", "RUTTING"] }
  strategy := .RESURFACAGE
  estimatedDays := 21
  deadlineDays := 180
  costs := some (150000, 450000)
  justification := r030Justification
  loads_condition := loads_eq_ok_of_chars rfl (by decide +kernel) (by decide +kernel)
  lookup_cond field := by cases field <;> rfl
  floatBounds := by decide +kernel
  loads_action := loads_eq_ok_of_pieces rfl rfl rfl (by decide +kernel) (by decide +kernel)
  template := ⟨_, rfl, by decide +kernel, by decide +kernel⟩

/-- `R031_MODERE_FISSURES_COLMATAGE`, decoded. -/
def r031 : SeededRule where
  rule := r031ModereFissuresColmatage
  level := .P2_PLANIFIE
  cond := [("pci_min", .int 55),
    ("pci_max", .int 70),
    ("dominant_type_in", .arr [.str "LONGITUDINAL_CRACK", .str "LATERAL_CRACK",
      .str "EDGE_CRACKING", .str "ALLIGATOR_CRACK"])]
  window := {
    pciMin := some 55
    pciMax := some 70
    dominantTypes := some
      ["LONGITUDINAL_CRACK", "LATERAL_CRACK", "EDGE_CRACKING", "ALLIGATOR_CRACK"] }
  strategy := .COLMATAGE
  estimatedDays := 10
  deadlineDays := 120
  costs := some (60000, 180000)
  justification := r031Justification
  loads_condition := loads_eq_ok_of_chars rfl (by decide +kernel) (by decide +kernel)
  lookup_cond field := by cases field <;> rfl
  floatBounds := by decide +kernel
  loads_action := loads_eq_ok_of_pieces rfl rfl rfl (by decide +kernel) (by decide +kernel)
  template := ⟨_, rfl, by decide +kernel, by decide +kernel⟩

/-- `R032_MODERE_DEFAUT_COLMATAGE`, decoded. -/
def r032 : SeededRule where
  rule := r032ModereDefautColmatage
  level := .P2_PLANIFIE
  cond := [("pci_min", .int 55), ("pci_max", .int 70)]
  window := { pciMin := some 55, pciMax := some 70 }
  strategy := .COLMATAGE
  estimatedDays := 10
  deadlineDays := 180
  costs := some (50000, 150000)
  justification := r032Justification
  loads_condition := loads_eq_ok_of_chars rfl (by decide +kernel) (by decide +kernel)
  lookup_cond field := by cases field <;> rfl
  floatBounds := by decide +kernel
  loads_action := loads_eq_ok_of_pieces rfl rfl rfl (by decide +kernel) (by decide +kernel)
  template := ⟨_, rfl, by decide +kernel, by decide +kernel⟩

/-- `R040_BON_FISSURES_COLMATAGE_PREVENTIF`, decoded. -/
def r040 : SeededRule where
  rule := r040BonFissuresColmatagePreventif
  level := .P3_SURVEILLANCE
  cond := [("pci_min", .int 70),
    ("pci_max", .int 85),
    ("min_detections", .int 1),
    ("dominant_type_in", .arr [.str "LONGITUDINAL_CRACK", .str "LATERAL_CRACK",
      .str "EDGE_CRACKING"])]
  window := {
    pciMin := some 70
    pciMax := some 85
    minDetections := some 1
    dominantTypes := some ["LONGITUDINAL_CRACK", "LATERAL_CRACK", "EDGE_CRACKING"] }
  strategy := .COLMATAGE
  estimatedDays := 5
  deadlineDays := 365
  costs := some (20000, 80000)
  justification := r040Justification
  loads_condition := loads_eq_ok_of_chars rfl (by decide +kernel) (by decide +kernel)
  lookup_cond field := by cases field <;> rfl
  floatBounds := by decide +kernel
  loads_action := loads_eq_ok_of_pieces rfl rfl rfl (by decide +kernel) (by decide +kernel)
  template := ⟨_, rfl, by decide +kernel, by decide +kernel⟩

/-- `R041_BON_SURVEILLANCE`, decoded. -/
def r041 : SeededRule where
  rule := r041BonSurveillance
  level := .P3_SURVEILLANCE
  cond := [("pci_min", .int 70), ("pci_max", .int 85)]
  window := { pciMin := some 70, pciMax := some 85 }
  strategy := .SURVEILLANCE
  estimatedDays := 1
  deadlineDays := 365
  costs := none
  justification := r041Justification
  loads_condition := loads_eq_ok_of_chars rfl (by decide +kernel) (by decide +kernel)
  lookup_cond field := by cases field <;> rfl
  floatBounds := by decide +kernel
  loads_action := loads_eq_ok_of_pieces rfl rfl rfl (by decide +kernel) (by decide +kernel)
  template := ⟨_, rfl, by decide +kernel, by decide +kernel⟩

/-- `R050_EXCELLENT_SURVEILLANCE`, decoded. -/
def r050 : SeededRule where
  rule := r050ExcellentSurveillance
  level := .P4_EXCELLENT
  cond := [("pci_min", .int 85)]
  window := { pciMin := some 85 }
  strategy := .SURVEILLANCE
  estimatedDays := 1
  deadlineDays := 730
  costs := none
  justification := r050Justification
  loads_condition := loads_eq_ok_of_chars rfl (by decide +kernel) (by decide +kernel)
  lookup_cond field := by cases field <;> rfl
  floatBounds := by decide +kernel
  loads_action := loads_eq_ok_of_pieces rfl rfl rfl (by decide +kernel) (by decide +kernel)
  template := ⟨_, rfl, by decide +kernel, by decide +kernel⟩

/-! ### What a seeded rule decides -/

variable {fieldFormat : FieldFormat} {ctx : AnalysisContext}

/-- `replace` leaves a text without the pattern alone. -/
theorem replaceChars_of_forall_tails {old new cs : List Char}
    (h : ∀ rest ∈ cs.tails, old.isPrefixOf rest = false) : replaceChars old new 0 cs = cs := by
  induction cs with
  | nil => rfl
  | cons c cs ih =>
    rw [List.tails_cons, List.forall_mem_cons] at h
    rw [replaceChars, if_neg (by simp [h.1]), ih h.2]

theorem render_of_plain {template code : String} {cs : List Char}
    (htemplate : template = String.ofList cs) (hplain : PlainJustification cs) :
    ∃ text, render fieldFormat (replace template "\x7bcode\x7d" code) ctx = .ok text ∧
      ∀ c ∈ text.toList, CharOf (templateArgs ctx) template.toList c := by
  have hcs : template.toList = cs := by rw [htemplate, String.toList_ofList]
  rw [hcs]
  refine strFormat_of_plain ?_ hplain.1
  rw [replace, hcs, replaceChars_of_forall_tails hplain.2]

namespace SeededRule

/-- The decision of the rule, with its rendered justification. -/
def decision (seed : SeededRule) (justification : String) : RuleDecision where
  strategy := seed.strategy
  ruleCode := seed.rule.code
  ruleName := seed.rule.name
  justification := justification
  estimatedDays := .int seed.estimatedDays
  deadlineDays := .int seed.deadlineDays
  costMinMad := seed.costs.map fun cost => .finite cost.1
  costMaxMad := seed.costs.map fun cost => .finite cost.2

theorem parse_condition (seed : SeededRule) (code kind : String) :
    parse seed.rule.condition code kind = .ok seed.cond :=
  parse_eq_ok seed.loads_condition code kind

/-- The amount a cost field holds, if there is one. -/
theorem lookup_cost (strategy : MaintenanceStrategy) (estimatedDays deadlineDays : ℤ)
    (costs : Option (ℤ × ℤ)) (justification : String) :
    (actionFields strategy estimatedDays deadlineDays costs justification).lookup "cost_min_mad"
        = costs.map (fun cost => .int cost.1) ∧
      (actionFields strategy estimatedDays deadlineDays costs justification).lookup "cost_max_mad"
        = costs.map fun cost => .int cost.2 := by
  cases costs <;> exact ⟨rfl, rfl⟩

theorem lookup_justification (strategy : MaintenanceStrategy) (estimatedDays deadlineDays : ℤ)
    (costs : Option (ℤ × ℤ)) (justification : String) :
    (actionFields strategy estimatedDays deadlineDays costs justification).lookup "justification"
      = some (.str justification) := by
  cases costs <;> rfl

theorem actionCost_eq {action : Fields} {key : String} {costs : Option (ℤ × ℤ)}
    {bound : ℤ × ℤ → ℤ} (h : action.lookup key = costs.map fun cost => .int (bound cost)) :
    actionCost action key = .ok (costs.map fun cost => .finite (bound cost)) := by
  rw [actionCost, h]
  cases costs <;> rfl

theorem decisionOf_eq (seed : SeededRule) :
    ∃ justification, decisionOf fieldFormat seed.rule ctx = .ok (seed.decision justification) ∧
      ∀ c ∈ justification.toList, CharOf (templateArgs ctx) seed.justification.toList c := by
  obtain ⟨cs, htemplate, hplain⟩ := seed.template
  obtain ⟨justification, hrender, hchars⟩ : ∃ text, render fieldFormat
        (replace seed.justification "\x7bcode\x7d" seed.rule.code) ctx = .ok text ∧
      ∀ c ∈ text.toList, CharOf (templateArgs ctx) seed.justification.toList c :=
    render_of_plain htemplate hplain
  refine ⟨justification, ?_, hchars⟩
  set action := actionFields seed.strategy seed.estimatedDays seed.deadlineDays seed.costs
    seed.justification with haction
  have hparse : parse seed.rule.action seed.rule.code "action" = .ok action :=
    parse_eq_ok seed.loads_action _ _
  have hstrategy : actionStrategy action seed.rule.code = .ok seed.strategy := by
    have hvalue : MaintenanceStrategy.ofValue? seed.strategy.value = some seed.strategy := by
      cases seed.strategy <;> decide
    have hlookup : action.lookup "strategy" = some (.str seed.strategy.value) := rfl
    simp only [actionStrategy, hlookup, hvalue, Option.elim_some]
  have htext : actionTemplate action seed.rule.code
      = .ok (replace seed.justification "\x7bcode\x7d" seed.rule.code) := by
    rw [actionTemplate, haction, lookup_justification, Option.getD_some]
  obtain ⟨hmin, hmax⟩ := lookup_cost seed.strategy seed.estimatedDays seed.deadlineDays seed.costs
    seed.justification
  rw [← haction] at hmin hmax
  exact decisionOf_eq_ok_iff.mpr ⟨action, _, hparse, hstrategy, htext, hrender, actionCost_eq hmin,
    actionCost_eq hmax, rfl, rfl, rfl, rfl⟩

theorem tests (seed : SeededRule) (ctx : AnalysisContext) :
    ∃ b : Bool, Tests ctx seed.rule seed.cond b ∧ (b = true ↔ seed.window.Contains ctx) := by
  have hmatch : ∃ b : Bool, matchesCond seed.cond ctx = .ok b ∧
      (b = true ↔ CondHolds seed.cond ctx) := by
    refine matchesCond_of_shape fun field v hv => ⟨?_, ?_⟩
    · exact Window.shape_field (seed.lookup_cond field ▸ hv)
    · exact seed.floatBounds _ (mem_of_lookup_eq_some hv)
  obtain ⟨b, hb, hiff⟩ := hmatch
  exact ⟨b, ⟨seed.parse_condition .., hb⟩, hiff.trans (Window.contains_iff seed.lookup_cond)⟩

end SeededRule

/-! ### The triage -/

/-- The nine rules, in the order of their priorities. -/
def seededTable : List SeededRule := [r010, r020, r021, r030, r031, r032, r040, r041, r050]

theorem ordered_seededRules : ordered seededRules = seededTable.map SeededRule.rule := by
  have hactive : seededRules.filter Rule.isActive = seededRules := rfl
  have hsorted : seededRules.Pairwise precedes := by decide +kernel
  rw [ordered, hactive, hsorted.insertionSort_eq]
  rfl

/-- The dominant type is one of the list. -/
def Dominated (dominant : Option String) (names : List String) : Prop :=
  ∃ name ∈ dominant, name ∈ names

instance (dominant : Option String) (names : List String) : Decidable (Dominated dominant names) :=
  match dominant with
  | none => .isFalse nofun
  | some name => decidable_of_iff (name ∈ names) (by simp [Dominated])

/-- The rule for a class of the index, a dominant type and a number of detections. -/
def triage (level : PriorityLevel) (dominant : Option String) (detections : ℤ) : SeededRule :=
  match level with
  | .P0_CRITIQUE => r010
  | .P1_URGENT =>
    if Dominated dominant ["POTHOLE", "ALLIGATOR_CRACK", "RUTTING"] then r020 else r021
  | .P2_PLANIFIE =>
    if Dominated dominant ["RAVELLING", "RUTTING"] then r030
    else if Dominated dominant
        ["LONGITUDINAL_CRACK", "LATERAL_CRACK", "EDGE_CRACKING", "ALLIGATOR_CRACK"] then r031
    else r032
  | .P3_SURVEILLANCE =>
    if Dominated dominant ["LONGITUDINAL_CRACK", "LATERAL_CRACK", "EDGE_CRACKING"] ∧
        1 ≤ detections then r040
    else r041
  | .P4_EXCELLENT => r050

/-- The windows of the rules, as conditions on a context. -/
theorem contains_seeded (ctx : AnalysisContext) :
    (r010.window.Contains ctx ↔ ctx.pci < 40) ∧
    (r020.window.Contains ctx ↔ (40 ≤ ctx.pci ∧ ctx.pci < 55) ∧
      Dominated ctx.dominantDamageType ["POTHOLE", "ALLIGATOR_CRACK", "RUTTING"]) ∧
    (r021.window.Contains ctx ↔ 40 ≤ ctx.pci ∧ ctx.pci < 55) ∧
    (r030.window.Contains ctx ↔ (55 ≤ ctx.pci ∧ ctx.pci < 70) ∧
      Dominated ctx.dominantDamageType ["RAVELLING", "RUTTING"]) ∧
    (r031.window.Contains ctx ↔ (55 ≤ ctx.pci ∧ ctx.pci < 70) ∧
      Dominated ctx.dominantDamageType
        ["LONGITUDINAL_CRACK", "LATERAL_CRACK", "EDGE_CRACKING", "ALLIGATOR_CRACK"]) ∧
    (r032.window.Contains ctx ↔ 55 ≤ ctx.pci ∧ ctx.pci < 70) ∧
    (r040.window.Contains ctx ↔ (70 ≤ ctx.pci ∧ ctx.pci < 85) ∧
      Dominated ctx.dominantDamageType ["LONGITUDINAL_CRACK", "LATERAL_CRACK", "EDGE_CRACKING"] ∧
      1 ≤ ctx.totalDetections) ∧
    (r041.window.Contains ctx ↔ 70 ≤ ctx.pci ∧ ctx.pci < 85) ∧
    (r050.window.Contains ctx ↔ 85 ≤ ctx.pci) := by
  simp only [Window.Contains, r010, r020, r021, r030, r031, r032, r040, r041, r050, Option.mem_def,
    reduceCtorEq, Option.some.injEq, forall_eq', IsEmpty.forall_iff, implies_true, true_and,
    and_true, Dominated, Nat.cast_ofNat, Nat.cast_one, and_assoc]

/-- The first window that contains a context is that of its triage. -/
theorem triage_first (ctx : AnalysisContext) :
    ∃ before after,
      seededTable = before ++ triage (classifyPriority ctx.pci) ctx.dominantDamageType
        ctx.totalDetections :: after ∧
      (∀ seed ∈ before, ¬ seed.window.Contains ctx) ∧
      (triage (classifyPriority ctx.pci) ctx.dominantDamageType ctx.totalDetections).window.Contains
        ctx := by
  obtain ⟨h010, h020, h021, h030, h031, h032, h040, h041, h050⟩ := contains_seeded ctx
  unfold classifyPriority
  -- from the best class down: the windows of the worse classes end below the index
  by_cases h85 : 85 ≤ ctx.pci
  · rw [if_pos h85]
    refine ⟨[r010, r020, r021, r030, r031, r032, r040, r041], [], rfl, ?_, h050.mpr h85⟩
    have h40 : ¬ ctx.pci < 40 := by linarith
    have h55 : ¬ ctx.pci < 55 := by linarith
    have h70 : ¬ ctx.pci < 70 := by linarith
    simp [h010, h020, h021, h030, h031, h032, h040, h041, h40, h55, h70, not_lt.mpr h85]
  rw [if_neg h85]
  by_cases h70 : 70 ≤ ctx.pci
  · rw [if_pos h70, triage]
    have hgood : 70 ≤ ctx.pci ∧ ctx.pci < 85 := ⟨h70, not_le.mp h85⟩
    have h40 : ¬ ctx.pci < 40 := by linarith
    have h55 : ¬ ctx.pci < 55 := by linarith
    -- within a class the dominant type decides how far down the list the match is
    split
    · rename_i hcrack
      refine ⟨[r010, r020, r021, r030, r031, r032], [r041, r050], rfl, ?_, h040.mpr ⟨hgood, hcrack⟩⟩
      simp [h010, h020, h021, h030, h031, h032, h40, h55, not_lt.mpr h70]
    · rename_i hcrack
      refine ⟨[r010, r020, r021, r030, r031, r032, r040], [r050], rfl, ?_, h041.mpr hgood⟩
      simp [h010, h020, h021, h030, h031, h032, h040, hcrack, h40, h55, not_lt.mpr h70]
  rw [if_neg h70]
  by_cases h55 : 55 ≤ ctx.pci
  · rw [if_pos h55, triage]
    have hfair : 55 ≤ ctx.pci ∧ ctx.pci < 70 := ⟨h55, not_le.mp h70⟩
    have h40 : ¬ ctx.pci < 40 := by linarith
    split
    · rename_i hsurface
      refine ⟨[r010, r020, r021], [r031, r032, r040, r041, r050], rfl, ?_,
        h030.mpr ⟨hfair, hsurface⟩⟩
      simp [h010, h020, h021, h40, not_lt.mpr h55]
    · rename_i hsurface
      split
      · rename_i hcrack
        refine ⟨[r010, r020, r021, r030], [r032, r040, r041, r050], rfl, ?_,
          h031.mpr ⟨hfair, hcrack⟩⟩
        simp [h010, h020, h021, h030, hsurface, h40, not_lt.mpr h55]
      · rename_i hcrack
        refine ⟨[r010, r020, r021, r030, r031], [r040, r041, r050], rfl, ?_, h032.mpr hfair⟩
        simp [h010, h020, h021, h030, h031, hsurface, hcrack, h40, not_lt.mpr h55]
  rw [if_neg h55]
  by_cases h40 : 40 ≤ ctx.pci
  · rw [if_pos h40, triage]
    have hpoor : 40 ≤ ctx.pci ∧ ctx.pci < 55 := ⟨h40, not_le.mp h55⟩
    split
    · rename_i hstructural
      refine ⟨[r010], [r021, r030, r031, r032, r040, r041, r050], rfl, ?_,
        h020.mpr ⟨hpoor, hstructural⟩⟩
      simp [h010, not_lt.mpr h40]
    · rename_i hstructural
      refine ⟨[r010, r020], [r030, r031, r032, r040, r041, r050], rfl, ?_, h021.mpr hpoor⟩
      simp [h010, h020, hstructural, not_lt.mpr h40]
  · rw [if_neg h40]
    exact ⟨[], [r020, r021, r030, r031, r032, r040, r041, r050], rfl, by simp,
      h010.mpr (not_le.mp h40)⟩

theorem triage_mem_seededTable (level : PriorityLevel) (dominant : Option String)
    (detections : ℤ) : triage level dominant detections ∈ seededTable := by
  have hmem : ∀ seed, seed = r010 ∨ seed = r020 ∨ seed = r021 ∨ seed = r030 ∨ seed = r031 ∨
      seed = r032 ∨ seed = r040 ∨ seed = r041 ∨ seed = r050 → seed ∈ seededTable := by
    simp [seededTable]
  unfold triage
  apply hmem
  split <;> first | (split <;> first | (split <;> simp) | simp) | simp

theorem level_triage (level : PriorityLevel) (dominant : Option String) (detections : ℤ) :
    (triage level dominant detections).level = level := by
  cases level with
  | P0_CRITIQUE => rfl
  | P1_URGENT => unfold triage; dsimp only; split <;> rfl
  | P2_PLANIFIE => unfold triage; dsimp only; split <;> [rfl; (split <;> rfl)]
  | P3_SURVEILLANCE => unfold triage; dsimp only; split <;> rfl
  | P4_EXCELLENT => rfl

/-- The first rule that matches is that of the triage. -/
theorem evaluate_seededRules (fieldFormat : FieldFormat) (ctx : AnalysisContext) :
    ∃ justification, evaluate fieldFormat seededRules ctx = .ok
        ((triage (classifyPriority ctx.pci) ctx.dominantDamageType ctx.totalDetections).decision
          justification) ∧
      ∀ c ∈ justification.toList, CharOf (templateArgs ctx)
        (triage (classifyPriority ctx.pci) ctx.dominantDamageType
          ctx.totalDetections).justification.toList c := by
  set seed := triage (classifyPriority ctx.pci) ctx.dominantDamageType ctx.totalDetections
    with hseed
  obtain ⟨before, after, hsplit, hbefore, hcontains⟩ := triage_first ctx
  rw [← hseed] at hsplit hcontains
  have hdecides : Decides seededRules ctx seed.rule seed.cond := by
    refine ⟨before.map SeededRule.rule, after.map SeededRule.rule, ?_, ?_, ?_⟩
    · rw [ordered_seededRules, hsplit, List.map_append, List.map_cons]
    · -- the rules before it do not contain the context, so they are rejected
      rw [List.forall_mem_map]
      intro rejected hmem
      obtain ⟨b, htests, hb⟩ := rejected.tests ctx
      have hfalse : b = false := by
        rw [← Bool.not_eq_true, hb]
        exact hbefore rejected hmem
      exact ⟨rejected.cond, hfalse ▸ htests⟩
    · obtain ⟨b, htests, hb⟩ := seed.tests ctx
      have htrue : b = true := hb.mpr hcontains
      exact htrue ▸ htests
  rw [evaluate_eq_of_decides hdecides]
  exact seed.decisionOf_eq

/-! ### Monotonicity -/

/-- The classes of the index, from the worst. -/
def rank : PriorityLevel → ℕ
  | .P0_CRITIQUE => 0
  | .P1_URGENT => 1
  | .P2_PLANIFIE => 2
  | .P3_SURVEILLANCE => 3
  | .P4_EXCELLENT => 4

theorem rank_injective : Function.Injective rank := by
  intro level level' h
  cases level <;> cases level' <;> first | rfl | cases h

theorem rank_classifyPriority_mono {pci pci' : ℚ} (h : pci ≤ pci') :
    rank (classifyPriority pci) ≤ rank (classifyPriority pci') := by
  unfold classifyPriority
  split_ifs <;> first | decide | (exfalso; linarith)

/-- A rule for a worse class has no later deadline and no smaller costs. -/
theorem le_of_rank_lt : ∀ seed ∈ seededTable, ∀ seed' ∈ seededTable,
    rank seed.level < rank seed'.level → seed.deadlineDays ≤ seed'.deadlineDays ∧
      ∀ cost ∈ seed.costs, ∀ cost' ∈ seed'.costs, cost'.1 ≤ cost.1 ∧ cost'.2 ≤ cost.2 := by
  decide

theorem triage_mono {pci pci' : ℚ} (h : pci ≤ pci') (dominant : Option String)
    (detections : ℤ) :
    (triage (classifyPriority pci) dominant detections).deadlineDays
        ≤ (triage (classifyPriority pci') dominant detections).deadlineDays ∧
      ∀ cost ∈ (triage (classifyPriority pci) dominant detections).costs,
        ∀ cost' ∈ (triage (classifyPriority pci') dominant detections).costs,
          cost'.1 ≤ cost.1 ∧ cost'.2 ≤ cost.2 := by
  rcases (rank_classifyPriority_mono h).lt_or_eq with hlt | heq
  · refine le_of_rank_lt _ (triage_mem_seededTable ..) _ (triage_mem_seededTable ..) ?_
    rwa [level_triage, level_triage]
  · -- within a class both contexts have the same rule
    rw [rank_injective heq]
    refine ⟨le_rfl, fun cost hcost cost' hcost' => ?_⟩
    have heq : cost = cost' := Option.mem_unique hcost hcost'
    exact heq ▸ ⟨le_rfl, le_rfl⟩

theorem ruleCode_triage_ne (level : PriorityLevel) (dominant : Option String) (detections : ℤ) :
    (triage level dominant detections).rule.code ≠ "FALLBACK" := by
  have hcodes : ∀ seed ∈ seededTable, seed.rule.code ≠ "FALLBACK" := by decide
  exact hcodes _ (triage_mem_seededTable ..)

/-- The seeded base decides every context, by its class, and for two contexts with the same
dominant type and number of detections the one with the lower index has no later deadline and no
smaller costs. -/
theorem seededRules_triage (fieldFormat : FieldFormat) (ctx ctx' : AnalysisContext)
    (hdominant : ctx.dominantDamageType = ctx'.dominantDamageType)
    (hdetections : ctx.totalDetections = ctx'.totalDetections) :
    ∃ decision decision', evaluate fieldFormat seededRules ctx = .ok decision ∧
      evaluate fieldFormat seededRules ctx' = .ok decision' ∧
      decision.ruleCode ≠ "FALLBACK" ∧ decision'.ruleCode ≠ "FALLBACK" ∧
      (classifyPriority ctx.pci = classifyPriority ctx'.pci →
        decision.ruleCode = decision'.ruleCode) ∧
      (ctx.pci ≤ ctx'.pci →
        (∃ days days' : ℤ, decision.deadlineDays = .int days ∧
          decision'.deadlineDays = .int days' ∧ days ≤ days') ∧
        (∀ cost ∈ decision.costMinMad, ∀ cost' ∈ decision'.costMinMad, numericLe cost' cost) ∧
        ∀ cost ∈ decision.costMaxMad, ∀ cost' ∈ decision'.costMaxMad, numericLe cost' cost) := by
  obtain ⟨justification, heval, -⟩ := evaluate_seededRules fieldFormat ctx
  obtain ⟨justification', heval', -⟩ := evaluate_seededRules fieldFormat ctx'
  -- both decisions are read off the table, at the same dominant type and count
  rw [← hdominant, ← hdetections] at heval'
  refine ⟨_, _, heval, heval', ?_, ?_, ?_, ?_⟩
  · exact ruleCode_triage_ne _ ctx.dominantDamageType ctx.totalDetections
  · exact ruleCode_triage_ne _ ctx.dominantDamageType ctx.totalDetections
  · intro hclass
    rw [hclass]
    rfl
  · intro hpci
    obtain ⟨hdays, hcosts⟩ := triage_mono hpci ctx.dominantDamageType ctx.totalDetections
    refine ⟨⟨_, _, rfl, rfl, hdays⟩, ?_, ?_⟩
    · intro cost hcost cost' hcost'
      obtain ⟨bounds, hbounds, rfl⟩ := Option.map_eq_some_iff.mp hcost
      obtain ⟨bounds', hbounds', rfl⟩ := Option.map_eq_some_iff.mp hcost'
      exact Int.cast_le.mpr (hcosts bounds hbounds bounds' hbounds').1
    · intro cost hcost cost' hcost'
      obtain ⟨bounds, hbounds, rfl⟩ := Option.map_eq_some_iff.mp hcost
      obtain ⟨bounds', hbounds', rfl⟩ := Option.map_eq_some_iff.mp hcost'
      exact Int.cast_le.mpr (hcosts bounds hbounds bounds' hbounds').2

/-- A critical road and an excellent one. -/
theorem seededRules_triage_soundRoad :
    ∃ decision decision',
      evaluate refuseSpecs seededRules { soundRoad with pci := 20 } = .ok decision ∧
      evaluate refuseSpecs seededRules soundRoad = .ok decision' ∧
      decision.ruleCode ≠ "FALLBACK" ∧ decision'.ruleCode ≠ "FALLBACK" ∧
      (∃ days days' : ℤ, decision.deadlineDays = .int days ∧
        decision'.deadlineDays = .int days' ∧ days ≤ days') := by
  obtain ⟨decision, decision', heval, heval', hcode, hcode', -, hmono⟩ :=
    seededRules_triage refuseSpecs { soundRoad with pci := 20 } soundRoad rfl rfl
  exact ⟨decision, decision', heval, heval', hcode, hcode',
    (hmono (by norm_num [soundRoad])).1⟩

end RoadVisionAI.RuleEngine
