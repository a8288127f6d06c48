import RoadVisionAI.Engines.Equiv.RuleEngine
import Mathlib.Data.Prod.Lex

/-!
# First match

The query that loads the rules does not order them, so the order in which `evaluate` takes them must
come from the rules themselves: `ordered` sorts by the key (priority, code), and codes that differ
leave it no choice (`ordered_eq_of_perm`).  `evaluateFrom` is `evaluate`, saying also whose decision
it returns (`evaluate_eq_map_evaluateFrom`); `first_match` says whose it is.
-/

namespace RoadVisionAI.RuleEngine

open Python

variable {fieldFormat : FieldFormat} {ctx : AnalysisContext}

/-! ### The order of evaluation -/

/-- The key of the sort. -/
def Rule.key (rule : Rule) : ℤ ×ₗ String := toLex (rule.priority, rule.code)

theorem precedes_iff {r r' : Rule} : precedes r r' ↔ r.key ≤ r'.key := by
  rw [Rule.key, Rule.key, Prod.Lex.toLex_le_toLex]
  rfl

instance : Std.Total precedes where
  total r r' := by
    rw [precedes_iff, precedes_iff]
    exact le_total r.key r'.key

instance : IsTrans Rule precedes where
  trans r r' r'' h h' := by
    rw [precedes_iff] at *
    exact h.trans h'

theorem mem_ordered {rules : List Rule} {rule : Rule} :
    rule ∈ ordered rules ↔ rule ∈ rules ∧ rule.isActive := by
  rw [ordered, List.mem_insertionSort, List.mem_filter]

theorem pairwise_ordered (rules : List Rule) : (ordered rules).Pairwise precedes :=
  List.pairwise_insertionSort precedes _

/-- Rules whose codes differ are evaluated in one order, however they are listed. -/
theorem ordered_eq_of_perm {rules rules' : List Rule} (hcodes : (rules.map Rule.code).Nodup)
    (hperm : rules.Perm rules') : ordered rules = ordered rules' := by
  have hsorted : (ordered rules).Perm (ordered rules') :=
    (List.perm_insertionSort precedes _).trans
      ((hperm.filter Rule.isActive).trans (List.perm_insertionSort precedes _).symm)
  refine hsorted.eq_of_pairwise ?_ (pairwise_ordered rules) (pairwise_ordered rules')
  intro r r' hr hr' hle hge
  rw [precedes_iff] at hle hge
  have hkey : r.key = r'.key := le_antisymm hle hge
  have hcode : r.code = r'.code := congrArg (fun key => (ofLex key).2) hkey
  have hmem : r ∈ rules := (mem_ordered.mp hr).1
  have hmem' : r' ∈ rules := (mem_ordered.mp (hsorted.symm.subset hr')).1
  exact List.inj_on_of_nodup_map hcodes hmem hmem' hcode

/-- A rule with a smaller key is evaluated before. -/
theorem mem_before_of_key_lt {rules before after : List Rule} {r rule : Rule}
    (hsplit : ordered rules = before ++ rule :: after) (hr : r ∈ rules) (hactive : r.isActive)
    (hlt : r.key < rule.key) : r ∈ before := by
  have hmem : r ∈ before ++ rule :: after := hsplit ▸ mem_ordered.mpr ⟨hr, hactive⟩
  have hsorted := hsplit ▸ pairwise_ordered rules
  rcases List.mem_append.mp hmem with hbefore | hafter
  · exact hbefore
  · have hle : rule.key ≤ r.key := by
      rcases List.mem_cons.mp hafter with rfl | hafter
      · exact le_rfl
      · exact precedes_iff.mp
          ((List.pairwise_cons.mp (List.pairwise_append.mp hsorted).2.1).1 r hafter)
    exact absurd hlt hle.not_gt

/-! ### Whose decision it is -/

/-- The loop of `evaluate`, with the rule whose decision it returns, or none for the built-in
one. -/
def evaluateOrderedFrom (fieldFormat : FieldFormat) (ctx : AnalysisContext) :
    List Rule → Except PyException (Option Rule × RuleDecision)
  | [] => do return (none, ← fallbackDecision fieldFormat ctx)
  | rule :: rules => do
    let cond ← parse rule.condition rule.code "condition"
    if ← matchesCond cond ctx then return (some rule, ← decisionOf fieldFormat rule ctx)
    else evaluateOrderedFrom fieldFormat ctx rules

/-- `evaluate`, with the rule whose decision it returns. -/
def evaluateFrom (fieldFormat : FieldFormat) (rules : List Rule) (ctx : AnalysisContext) :
    Except PyException (Option Rule × RuleDecision) :=
  evaluateOrderedFrom fieldFormat ctx (ordered rules)

theorem evaluateOrderedFrom_of_tests_false {rule : Rule} {cond : Fields}
    (h : Tests ctx rule cond false) (rules : List Rule) :
    evaluateOrderedFrom fieldFormat ctx (rule :: rules)
      = evaluateOrderedFrom fieldFormat ctx rules := by
  simp [evaluateOrderedFrom, h.1, h.2, bind, Except.bind]

theorem evaluateOrderedFrom_of_tests_true {rule : Rule} {cond : Fields}
    (h : Tests ctx rule cond true) (rules : List Rule) :
    evaluateOrderedFrom fieldFormat ctx (rule :: rules)
      = (decisionOf fieldFormat rule ctx).map fun decision => (some rule, decision) := by
  simp only [evaluateOrderedFrom, h.1, h.2, bind, Except.bind]
  cases decisionOf fieldFormat rule ctx <;> rfl

theorem evaluateOrderedFrom_of_raises {rule : Rule} {exc : PyException}
    (h : CondRaises ctx rule exc) (rules : List Rule) :
    evaluateOrderedFrom fieldFormat ctx (rule :: rules) = .error exc := by
  rcases h with hparse | ⟨cond, hparse, hmatch⟩
  · simp [evaluateOrderedFrom, hparse, bind, Except.bind]
  · simp [evaluateOrderedFrom, hparse, hmatch, bind, Except.bind]

/-- The loop passes over the rules that do not match. -/
theorem evaluateOrderedFrom_append {before : List Rule}
    (hbefore : ∀ r ∈ before, ∃ cond, Tests ctx r cond false) (rest : List Rule) :
    evaluateOrderedFrom fieldFormat ctx (before ++ rest)
      = evaluateOrderedFrom fieldFormat ctx rest := by
  induction before with
  | nil => rfl
  | cons r before ih =>
    obtain ⟨⟨cond, hr⟩, hbefore⟩ := List.forall_mem_cons.mp hbefore
    rw [List.cons_append, evaluateOrderedFrom_of_tests_false hr, ih hbefore]

/-- By induction on the rules; the two loops do the same with each. -/
theorem evaluateOrdered_eq_map (fieldFormat : FieldFormat) (ctx : AnalysisContext)
    (rules : List Rule) :
    evaluateOrdered fieldFormat ctx rules
      = (evaluateOrderedFrom fieldFormat ctx rules).map Prod.snd := by
  induction rules with
  | nil =>
    rw [evaluateOrdered, evaluateOrderedFrom]
    cases fallbackDecision fieldFormat ctx <;> rfl
  | cons rule rules ih =>
    rcases tests_cases ctx rule with ⟨cond, hfalse⟩ | ⟨cond, htrue⟩ | ⟨exc, hraises⟩
    · rw [evaluateOrdered_of_tests_false hfalse, evaluateOrderedFrom_of_tests_false hfalse, ih]
    · rw [evaluateOrdered_of_tests_true htrue, evaluateOrderedFrom_of_tests_true htrue]
      cases decisionOf fieldFormat rule ctx <;> rfl
    · rw [evaluateOrdered_of_raises hraises, evaluateOrderedFrom_of_raises hraises]
      rfl

/-- Forgetting whose decision it is leaves `evaluate`. -/
theorem evaluate_eq_map_evaluateFrom (fieldFormat : FieldFormat) (rules : List Rule)
    (ctx : AnalysisContext) :
    evaluate fieldFormat rules ctx = (evaluateFrom fieldFormat rules ctx).map Prod.snd :=
  evaluateOrdered_eq_map fieldFormat ctx (ordered rules)

/-- The built-in decision is always there. -/
theorem exists_fallbackDecision (fieldFormat : FieldFormat) (ctx : AnalysisContext) :
    ∃ decision, fallbackDecision fieldFormat ctx = .ok decision := by
  obtain ⟨cs, hchars, hplain⟩ : ∃ cs, fallbackTemplate = String.ofList cs ∧
      plainChars ["pci", "dominant", "severity", "priority", "detections"] cs.length cs = true :=
    ⟨_, eq_ofList_of_pieces rfl rfl rfl, by decide +kernel⟩
  obtain ⟨text, htext, -⟩ : ∃ text, render fieldFormat fallbackTemplate ctx = .ok text ∧
      ∀ c ∈ text.toList, CharOf (templateArgs ctx) cs c :=
    strFormat_of_plain hchars hplain
  exact ⟨_, by rw [fallbackDecision, htext]; rfl⟩

/-- What a decision comes from. -/
theorem evaluateFrom_eq_ok_iff {rules : List Rule} {source : Option Rule}
    {decision : RuleDecision} :
    evaluateFrom fieldFormat rules ctx = .ok (source, decision) ↔
      (∃ rule cond, Decides rules ctx rule cond ∧ source = some rule ∧
          decisionOf fieldFormat rule ctx = .ok decision) ∨
        (∀ rule ∈ ordered rules, ∃ cond, Tests ctx rule cond false) ∧ source = none ∧
          fallbackDecision fieldFormat ctx = .ok decision := by
  constructor
  · intro h
    rcases scan_cases ctx (ordered rules) with hall | ⟨before, rule, after, hsplit, hbefore, hstop⟩
    · have hnil : evaluateFrom fieldFormat rules ctx
          = (fallbackDecision fieldFormat ctx).map fun decision => (none, decision) := by
        rw [evaluateFrom, ← List.append_nil (ordered rules), evaluateOrderedFrom_append hall,
          evaluateOrderedFrom]
        cases fallbackDecision fieldFormat ctx <;> rfl
      rw [hnil] at h
      obtain ⟨fallback, hfallback, heq⟩ := map_eq_ok_iff.mp h
      obtain ⟨rfl, rfl⟩ := Prod.mk.inj heq
      exact Or.inr ⟨hall, rfl, hfallback⟩
    · rw [evaluateFrom, hsplit, evaluateOrderedFrom_append hbefore] at h
      rcases hstop with ⟨cond, hrule⟩ | ⟨exc, hraises⟩
      · rw [evaluateOrderedFrom_of_tests_true hrule] at h
        obtain ⟨decided, hdecided, heq⟩ := map_eq_ok_iff.mp h
        obtain ⟨rfl, rfl⟩ := Prod.mk.inj heq
        exact Or.inl ⟨rule, cond, ⟨before, after, hsplit, hbefore, hrule⟩, rfl, hdecided⟩
      · rw [evaluateOrderedFrom_of_raises hraises] at h
        cases h
  · rintro (⟨rule, cond, ⟨before, after, hsplit, hbefore, hrule⟩, rfl, hdecision⟩ |
      ⟨hall, rfl, hfallback⟩)
    · rw [evaluateFrom, hsplit, evaluateOrderedFrom_append hbefore,
        evaluateOrderedFrom_of_tests_true hrule, hdecision]
      rfl
    · rw [evaluateFrom, ← List.append_nil (ordered rules), evaluateOrderedFrom_append hall,
        evaluateOrderedFrom, hfallback]
      rfl

/-- **First match.**  Rules with different codes have one outcome in whatever order they are listed.
A rule's decision is that of an active rule that matches, no active rule with a smaller key
matching; the built-in one is returned exactly when no active rule matches and none raises. -/
theorem first_match {rules rules' : List Rule} (hcodes : (rules.map Rule.code).Nodup)
    (hperm : rules.Perm rules') (ctx : AnalysisContext) :
    evaluate fieldFormat rules' ctx = evaluate fieldFormat rules ctx ∧
      evaluate fieldFormat rules ctx = (evaluateFrom fieldFormat rules ctx).map Prod.snd ∧
      (∀ rule decision, evaluateFrom fieldFormat rules ctx = .ok (some rule, decision) →
        rule ∈ rules ∧ rule.isActive ∧ (∃ cond, Tests ctx rule cond true) ∧
          decisionOf fieldFormat rule ctx = .ok decision ∧
          ∀ r ∈ rules, r.isActive → r.key < rule.key → ∃ cond, Tests ctx r cond false) ∧
      ((∃ decision, evaluateFrom fieldFormat rules ctx = .ok (none, decision) ∧
          fallbackDecision fieldFormat ctx = .ok decision) ↔
        ∀ r ∈ rules, r.isActive → ∃ cond, Tests ctx r cond false) := by
  refine ⟨?_, evaluate_eq_map_evaluateFrom fieldFormat rules ctx, ?_, ?_⟩
  · rw [evaluate, evaluate, ordered_eq_of_perm hcodes hperm]
  · intro rule decision h
    rcases evaluateFrom_eq_ok_iff.mp h with ⟨_, cond, hdecides, hsource, hdecision⟩ | ⟨-, hnone, -⟩
    · obtain rfl := Option.some.inj hsource
      obtain ⟨before, after, hsplit, hbefore, hrule⟩ := hdecides
      have hmem : rule ∈ ordered rules := hsplit ▸ List.mem_append_cons_self
      refine ⟨(mem_ordered.mp hmem).1, (mem_ordered.mp hmem).2, ⟨cond, hrule⟩, hdecision, ?_⟩
      intro r hr hactive hlt
      exact hbefore r (mem_before_of_key_lt hsplit hr hactive hlt)
    · cases hnone
  · constructor
    · rintro ⟨decision, h, -⟩ r hr hactive
      rcases evaluateFrom_eq_ok_iff.mp h with ⟨_, _, -, hsource, -⟩ | ⟨hall, -, -⟩
      · cases hsource
      · exact hall r (mem_ordered.mpr ⟨hr, hactive⟩)
    · intro hall
      obtain ⟨decision, hdecision⟩ := exists_fallbackDecision fieldFormat ctx
      refine ⟨decision, evaluateFrom_eq_ok_iff.mpr (Or.inr ⟨?_, rfl, hdecision⟩), hdecision⟩
      intro rule hrule
      obtain ⟨hmem, hactive⟩ := mem_ordered.mp hrule
      exact hall rule hmem hactive

/-- Two rules, in either order. -/
theorem first_match_twoRules :
    evaluate refuseSpecs [catchAll routineAction, misspeltRule] soundRoad
        = evaluate refuseSpecs [misspeltRule, catchAll routineAction] soundRoad ∧
      evaluate refuseSpecs [misspeltRule, catchAll routineAction] soundRoad
        = (evaluateFrom refuseSpecs [misspeltRule, catchAll routineAction] soundRoad).map Prod.snd ∧
      (∀ rule decision,
        evaluateFrom refuseSpecs [misspeltRule, catchAll routineAction] soundRoad
            = .ok (some rule, decision) →
          rule ∈ [misspeltRule, catchAll routineAction] ∧ rule.isActive ∧
            (∃ cond, Tests soundRoad rule cond true) ∧
            decisionOf refuseSpecs rule soundRoad = .ok decision ∧
            ∀ r ∈ [misspeltRule, catchAll routineAction], r.isActive → r.key < rule.key →
              ∃ cond, Tests soundRoad r cond false) ∧
      ((∃ decision,
          evaluateFrom refuseSpecs [misspeltRule, catchAll routineAction] soundRoad
              = .ok (none, decision) ∧
            fallbackDecision refuseSpecs soundRoad = .ok decision) ↔
        ∀ r ∈ [misspeltRule, catchAll routineAction], r.isActive →
          ∃ cond, Tests soundRoad r cond false) :=
  first_match (by decide) (List.Perm.swap ..) soundRoad

theorem ruleCode_decisionOf {rule : Rule} {decision : RuleDecision}
    (h : decisionOf fieldFormat rule ctx = .ok decision) : decision.ruleCode = rule.code := by
  obtain ⟨action, template, -, -, -, -, -, -, hcode, -⟩ := decisionOf_eq_ok_iff.mp h
  exact hcode

theorem ruleCode_fallbackDecision {decision : RuleDecision}
    (h : fallbackDecision fieldFormat ctx = .ok decision) : decision.ruleCode = "FALLBACK" := by
  obtain ⟨justification, -, h⟩ := bind_eq_ok_iff.mp h
  obtain rfl := Except.ok.inj h
  rfl

/-- Where no rule takes the code of the built-in decision, the decision itself tells whose it is. -/
theorem evaluate_eq_fallbackDecision_iff {rules : List Rule}
    (hcodes : ∀ r ∈ rules, r.isActive → r.code ≠ "FALLBACK") :
    evaluate fieldFormat rules ctx = fallbackDecision fieldFormat ctx ↔
      ∀ r ∈ rules, r.isActive → ∃ cond, Tests ctx r cond false := by
  obtain ⟨fallback, hfallback⟩ := exists_fallbackDecision fieldFormat ctx
  constructor
  · intro h r hr hactive
    rcases evaluate_cases (h.trans hfallback) with ⟨rule, _, hdecides, hdecision⟩ | ⟨hall, -⟩
    · obtain ⟨before, after, hsplit, -, -⟩ := hdecides
      have hmem : rule ∈ ordered rules := hsplit ▸ List.mem_append_cons_self
      obtain ⟨hrule, hruleActive⟩ := mem_ordered.mp hmem
      have hcode := (ruleCode_decisionOf hdecision).symm.trans (ruleCode_fallbackDecision hfallback)
      exact absurd hcode (hcodes rule hrule hruleActive)
    · exact hall r (mem_ordered.mpr ⟨hr, hactive⟩)
  · intro hall
    rw [evaluate, evaluateOrdered_of_forall]
    intro rule hrule
    obtain ⟨hmem, hactive⟩ := mem_ordered.mp hrule
    exact hall rule hmem hactive

end RoadVisionAI.RuleEngine
