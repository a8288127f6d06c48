import RoadVisionAI.Detection.Equiv.Detector
import RoadVisionAI.Engines.Equiv.PciEngine
import RoadVisionAI.Workers.AnalysisWorker

/-!
# The outputs of the worker

Two facts about the rows a run computes.  `analyse_satisfies_checks`: on confidences in `[0, 1]` the
computation does not raise, its rows satisfy the constraints of their tables, and the columns hold
them without loss.  `recompute_store`: from the stored detections alone, in any order, `compute_pci`
returns the stored score, labels and dominant type.  Both rest on what an entry of
`all_detections` is (`mem_allDetections`), the second also on the order independence of the engine.
-/

namespace RoadVisionAI.AnalysisWorker

open Python Db Detector PciEngine

variable {K : Type*} [Field K] [LinearOrder K] [IsStrictOrderedRing K] [FloorRing K]

/-! ### The entries of `all_detections` -/

theorem find?_eq_some_of_nodup {α β : Type*} [DecidableEq β] {key : α → β} {l : List α} {a : α}
    (h : (l.map key).Nodup) (ha : a ∈ l) : (l.find? fun x => key x = key a) = some a := by
  induction l with
  | nil => cases ha
  | cons x xs ih =>
    rw [List.map_cons, List.nodup_cons] at h
    rcases List.mem_cons.mp ha with rfl | hxs
    · simp
    · have hne : key x ≠ key a := fun heq => h.1 (heq ▸ List.mem_map_of_mem hxs)
      rw [List.find?_cons_of_neg (by simpa using hne)]
      exact ih h.2 hxs

omit [IsStrictOrderedRing K] [FloorRing K] in
/-- A code is looked up to the row that has it. -/
theorem get?_typesByCode {damageTypes : DamageTypeTable K} {code : String} {dt : DamageType K}
    (h : (typesByCode damageTypes).get? code = some dt) :
    dt ∈ damageTypes.rows ∧ dt.code = code := by
  have hkeys : ((damageTypes.rows.map fun dt => (dt.code, dt)).map Prod.fst).Nodup := by
    simpa [List.map_map, Function.comp_def] using damageTypes.nodup_codes
  rw [typesByCode, Dict.get?_ofItems hkeys] at h
  have hmem : (code, dt) ∈ damageTypes.rows.map fun dt => (dt.code, dt) := mem_of_lookup_eq_some h
  obtain ⟨dt', hdt', heq⟩ := List.mem_map.mp hmem
  obtain ⟨rfl, rfl⟩ := Prod.mk.inj heq
  exact ⟨hdt', rfl⟩

variable {model : ActiveModel K} {damageTypes : DamageTypeTable K} {images : List RoadImage}

/-- An entry comes from a box of one of the images, and its code is looked up in the table. -/
theorem mem_allDetections {found : Found K} (h : found ∈ allDetections model damageTypes images) :
    found.image ∈ images ∧
      (∃ box ∈ model.predict found.image,
        found.det = detectBox model.upper model.classMapping box) ∧
      (typesByCode damageTypes).get? found.det.damageCode = some found.damageType := by
  obtain ⟨image, himage, hfound⟩ := List.mem_flatMap.mp h
  obtain ⟨det, hdet, hsome⟩ := List.mem_filterMap.mp hfound
  obtain ⟨damageType, hget, rfl⟩ := Option.map_eq_some_iff.mp hsome
  obtain ⟨box, hbox, rfl⟩ := List.mem_map.mp hdet
  exact ⟨himage, ⟨box, hbox, rfl⟩, hget⟩

/-- Entries of one code have one row of the table, hence one weight. -/
theorem uniformWeights_pciInput :
    UniformWeights ((allDetections model damageTypes images).map Found.pciInput) := by
  intro d hd d' hd' hcode
  obtain ⟨found, hfound, rfl⟩ := List.mem_map.mp hd
  obtain ⟨found', hfound', rfl⟩ := List.mem_map.mp hd'
  have hcode' : found.det.damageCode = found'.det.damageCode := hcode
  have hget := (mem_allDetections hfound).2.2
  rw [hcode', (mem_allDetections hfound').2.2] at hget
  have htype : found'.damageType = found.damageType := Option.some.inj hget
  show found.damageType.pciWeight = found'.damageType.pciWeight
  rw [htype]

/-! ### Storage is lossless -/

/-- The rows as their columns hold them. -/
def Outputs.quantize (outputs : Outputs K) : Outputs K where
  damageDetections := outputs.damageDetections.map DamageDetection.quantize
  pciScore := outputs.pciScore.quantize
  analysisResult := outputs.analysisResult.quantize

/-- Every number of a detection row was rounded to four decimals by the detector. -/
theorem quantize_row {found : Found K} (h : found ∈ allDetections model damageTypes images) :
    (found.row model).quantize = found.row model := by
  obtain ⟨-, ⟨box, -, hdet⟩, -⟩ := mem_allDetections h
  simp only [DamageDetection.quantize, Found.row, hdet, detectBox, provisionalSeverity,
    quantizeHalfUp_pyRound]

theorem quantize_recommendationConfidence (found : List (Found K)) :
    (recommendationConfidence found).map (fun confidence => quantizeHalfUp confidence 4)
      = recommendationConfidence found := by
  unfold recommendationConfidence
  split_ifs <;> simp

/-- The rows `analyse` returns, from the result of the engine. -/
def outputsOf (model : ActiveModel K) (found : List (Found K)) (pci : PciResult K)
    (analysisId : Uuid) (processingTimeMs : ℕ) : Outputs K where
  damageDetections := found.map (Found.row model)
  pciScore := {
    score := pci.score
    severityLevel := pci.severityLevel
    priorityLevel := pci.priorityLevel }
  analysisResult := {
    id := analysisId
    totalDetections := found.length
    dominantDamageType := dominantType pci
    overallSeverity := pci.severityLevel
    recommendationConfidence := recommendationConfidence found
    processingTimeMs }

variable {analysisId : Uuid} {processingTimeMs : ℕ} {outputs : Outputs K}

theorem analyse_eq_ok_iff :
    analyse model damageTypes images analysisId processingTimeMs = .ok outputs
      ↔ images ≠ [] ∧ ∃ pci,
          computePci ((allDetections model damageTypes images).map Found.pciInput) images.length
            = .ok pci ∧
          outputs = outputsOf model (allDetections model damageTypes images) pci analysisId
            processingTimeMs := by
  unfold analyse
  cases images with
  | nil => simp
  | cons image rest =>
    simp only [List.isEmpty_cons, Bool.false_eq_true, if_false, ne_eq, reduceCtorEq,
      not_false_eq_true, true_and]
    cases computePci ((allDetections model damageTypes (image :: rest)).map Found.pciInput)
        ((image :: rest).length : ℤ) with
    | error exc => simp [bind, Except.bind]
    | ok pci => simp [bind, Except.bind, pure, Except.pure, outputsOf, eq_comm]

/-- The result of the engine on the entries is the CDC record whenever the run returns. -/
theorem computePci_eq_cdcResult {pci : PciResult K}
    (h : computePci ((allDetections model damageTypes images).map Found.pciInput) images.length
      = .ok pci) :
    pci = cdcResult ((allDetections model damageTypes images).map Found.pciInput)
      images.length := by
  obtain ⟨hn, hv⟩ := valid_of_computePci_eq_ok h
  rw [computePci_eq hn hv] at h
  exact (Except.ok.inj h).symm

/-- The columns hold what the worker computed. -/
theorem quantize_analyse
    (h : analyse model damageTypes images analysisId processingTimeMs = .ok outputs) :
    outputs.quantize = outputs := by
  obtain ⟨-, pci, hpci, rfl⟩ := analyse_eq_ok_iff.mp h
  obtain rfl := computePci_eq_cdcResult hpci
  have hrows : ((allDetections model damageTypes images).map (Found.row model)).map
      DamageDetection.quantize
        = (allDetections model damageTypes images).map (Found.row model) := by
    rw [List.map_map]
    exact List.map_congr_left fun found hfound => quantize_row hfound
  simp only [Outputs.quantize, outputsOf, hrows, PciScore.quantize, cdcResult, round2,
    quantizeHalfUp_quantizeHalfUp, AnalysisResult.quantize, quantize_recommendationConfidence]

theorem mapM_store_eq_ok {rows stored : List (DamageDetection K)}
    (h : rows.mapM DamageDetection.store = .ok stored) :
    stored = rows.map DamageDetection.quantize := by
  induction rows generalizing stored with
  | nil =>
    rw [List.mapM_nil] at h
    exact (Except.ok.inj h).symm
  | cons row rows ih =>
    rw [List.mapM_cons] at h
    cases hrow : row.store with
    | error exc => simp [hrow, bind, Except.bind] at h
    | ok row' =>
      cases hrows : rows.mapM DamageDetection.store with
      | error exc => simp [hrow, hrows, bind, Except.bind] at h
      | ok rows' =>
        simp only [hrow, hrows, bind, Except.bind, pure, Except.pure, Except.ok.injEq] at h
        rw [← h, List.map_cons, ih hrows, (storeRow_eq_ok_iff.mp hrow).1]

theorem store_eq_ok {stored : Outputs K} (h : outputs.store = .ok stored) :
    stored = outputs.quantize := by
  unfold Outputs.store at h
  cases hdets : outputs.damageDetections.mapM DamageDetection.store with
  | error exc => simp [hdets, bind, Except.bind] at h
  | ok dets =>
    cases hpci : outputs.pciScore.store with
    | error exc => simp [hdets, hpci, bind, Except.bind] at h
    | ok pci =>
      cases hanalysis : outputs.analysisResult.store with
      | error exc => simp [hdets, hpci, hanalysis, bind, Except.bind] at h
      | ok analysis =>
        simp only [hdets, hpci, hanalysis, bind, Except.bind, pure, Except.pure,
          Except.ok.injEq] at h
        rw [← h, Outputs.quantize, mapM_store_eq_ok hdets, (storeRow_eq_ok_iff.mp hpci).1,
          (storeRow_eq_ok_iff.mp hanalysis).1]

/-! ### The audit -/

omit [IsStrictOrderedRing K] [FloorRing K] in
theorem auditInput_eq {dt : DamageType K} (hdt : dt ∈ damageTypes.rows) {row : DamageDetection K}
    (hrow : row.damageTypeId = dt.id) :
    auditInput damageTypes row = some {
      damageCode := dt.code
      pciWeight := dt.pciWeight
      severity := row.severityScore
      relArea := row.bboxWidth * row.bboxHeight
      imageId := row.roadImageId.str } := by
  rw [auditInput, hrow, find?_eq_some_of_nodup damageTypes.nodup_ids hdt, Option.map_some]

/-- The row of an entry stands for the input the worker gave the engine. -/
theorem auditInput_row {found : Found K} (h : found ∈ allDetections model damageTypes images) :
    auditInput damageTypes (found.row model) = some found.pciInput := by
  obtain ⟨hdt, hcode⟩ := get?_typesByCode (mem_allDetections h).2.2
  rw [auditInput_eq hdt rfl, hcode]
  rfl

theorem filterMap_auditInput_rows :
    ((allDetections model damageTypes images).map (Found.row model)).filterMap
        (auditInput damageTypes)
      = (allDetections model damageTypes images).map Found.pciInput := by
  rw [List.filterMap_map, ← List.filterMap_eq_map]
  exact List.filterMap_congr fun found hfound => auditInput_row hfound

/-- **The stored rows reproduce the score.**  Whatever order the detections are read back in. -/
theorem recompute_store {stored : Outputs K}
    (h : analyse model damageTypes images analysisId processingTimeMs = .ok outputs)
    (hstore : outputs.store = .ok stored) {rows : List (DamageDetection K)}
    (hperm : rows.Perm stored.damageDetections) :
    ∃ pci, recompute damageTypes rows images.length = .ok pci ∧
      stored.pciScore = {
        score := pci.score
        severityLevel := pci.severityLevel
        priorityLevel := pci.priorityLevel } ∧
      stored.analysisResult.dominantDamageType = dominantType pci ∧
      stored.analysisResult.totalDetections = rows.length := by
  -- what is stored is what was computed
  have hstored : stored = outputs := by rw [store_eq_ok hstore, quantize_analyse h]
  rw [hstored] at hperm ⊢
  obtain ⟨-, pci, hpci, rfl⟩ := analyse_eq_ok_iff.mp h
  obtain ⟨hn, hv⟩ := valid_of_computePci_eq_ok hpci
  -- and the auditor gives the engine what the worker gave it, in another order
  have hinputs : ((allDetections model damageTypes images).map Found.pciInput).Perm
      (rows.filterMap (auditInput damageTypes)) := by
    rw [← filterMap_auditInput_rows]
    exact (hperm.filterMap _).symm
  refine ⟨pci, ?_, rfl, rfl, ?_⟩
  · rw [recompute, ← computePci_perm hinputs hv uniformWeights_pciInput hn, hpci]
  · rw [hperm.length_eq]
    exact (List.length_map (Found.row model)).symm

/-! ### The constraints hold -/

/-- The rows satisfy the `CHECK`s of their tables. -/
structure Outputs.Checks (outputs : Outputs K) : Prop where
  damageDetections : ∀ row ∈ outputs.damageDetections, row.Checks
  pciScore : outputs.pciScore.Checks
  analysisResult : outputs.analysisResult.Checks

/-- The model's confidences are probabilities. -/
def ActiveModel.ConfInRange (model : ActiveModel K) (images : List RoadImage) : Prop :=
  ∀ image ∈ images, ∀ box ∈ model.predict image, 0 ≤ box.conf ∧ box.conf ≤ 1

theorem inRange_det (hconf : model.ConfInRange images) {found : Found K}
    (h : found ∈ allDetections model damageTypes images) : found.det.InRange := by
  obtain ⟨himage, ⟨box, hbox, hdet⟩, -⟩ := mem_allDetections h
  rw [hdet]
  exact inRange_detectBox _ _ (hconf _ himage box hbox)

theorem valid_pciInput (hconf : model.ConfInRange images) :
    ∀ d ∈ (allDetections model damageTypes images).map Found.pciInput, d.Valid := by
  intro d hd
  obtain ⟨found, hfound, rfl⟩ := List.mem_map.mp hd
  have hrange := inRange_det hconf hfound
  exact ⟨hrange.severity_mem, hrange.area_mem⟩

/-- A mean of numbers of `[0, 1]`, rounded, lies in `[0, 1]`. -/
theorem recommendationConfidence_mem {found : List (Found K)}
    (h : ∀ f ∈ found, 0 ≤ f.det.confidence ∧ f.det.confidence ≤ 1) :
    ∀ confidence ∈ recommendationConfidence found, 0 ≤ confidence ∧ confidence ≤ 1 := by
  intro confidence hmem
  unfold recommendationConfidence at hmem
  split_ifs at hmem with hnil
  · cases hmem
  · obtain rfl := Option.some.inj hmem
    have hpos : (0 : K) < found.length := by
      rw [List.isEmpty_iff, ← List.length_eq_zero_iff] at hnil
      exact_mod_cast Nat.pos_of_ne_zero hnil
    have hsum_nonneg : 0 ≤ (found.map fun f => f.det.confidence).sum :=
      List.sum_nonneg fun x hx => by
        obtain ⟨f, hf, rfl⟩ := List.mem_map.mp hx
        exact (h f hf).1
    have hsum_le : (found.map fun f => f.det.confidence).sum ≤ found.length := by
      have hcard := List.sum_le_card_nsmul (found.map fun f => f.det.confidence) 1 fun x hx => by
        obtain ⟨f, hf, rfl⟩ := List.mem_map.mp hx
        exact (h f hf).2
      simpa using hcard
    constructor
    · exact halfEven.toPlaces_nonneg (div_nonneg hsum_nonneg hpos.le) 4
    · exact halfEven.toPlaces_le_one ((div_le_one hpos).mpr hsum_le) 4

/-- **No input reaches an error.**  For every non-empty list of images and every prediction with
confidences in `[0, 1]`, whatever the sides of its boxes, the computation returns rows that satisfy
the constraints of their tables and that the columns hold as they are. -/
theorem analyse_satisfies_checks (model : ActiveModel K) (damageTypes : DamageTypeTable K)
    (images : List RoadImage) (analysisId : Uuid) (processingTimeMs : ℕ) (hne : images ≠ [])
    (hconf : model.ConfInRange images) :
    ∃ outputs, analyse model damageTypes images analysisId processingTimeMs = .ok outputs ∧
      outputs.Checks ∧ outputs.quantize = outputs := by
  have hn : 1 ≤ (images.length : ℤ) := by
    exact_mod_cast Nat.pos_of_ne_zero (by simpa using hne)
  have hv : ∀ d ∈ (allDetections model damageTypes images).map Found.pciInput, d.Valid :=
    valid_pciInput hconf
  have hok : analyse model damageTypes images analysisId processingTimeMs = .ok _ :=
    analyse_eq_ok_iff.mpr ⟨hne, _, computePci_eq hn hv, rfl⟩
  refine ⟨_, hok, ⟨?_, ?_, ?_⟩, quantize_analyse hok⟩
  · intro row hrow
    obtain ⟨found, hfound, rfl⟩ := List.mem_map.mp hrow
    have hrange := inRange_det hconf hfound
    exact ⟨hrange.bboxX_nonneg, hrange.bboxY_nonneg, hrange.bboxWidth_pos, hrange.bboxHeight_pos,
      hrange.confidence_mem, hrange.severity_mem⟩
  · exact cdcResult_score_mem _ _
  · exact recommendationConfidence_mem fun found hfound => (inRange_det hconf hfound).confidence_mem

/-- A table with one damage type. -/
def potholeTable : DamageTypeTable ℚ where
  rows := [{ id := ⟨"dt-pothole"⟩, code := "POTHOLE", pciWeight := 7 / 20 }]
  nodup_ids := by decide
  nodup_codes := by decide
  pciWeight_mem := by decide +kernel

/-- A model that sees a pothole, one larger than the frame and one of negative height, and a class
the table does not have. -/
def potholeModel : ActiveModel ℚ where
  modelId := ⟨"model-1"⟩
  upper := id
  classMapping := none
  predict := fun _ =>
    [{ className := "pothole", conf := 9 / 10, xc := 1 / 2, yc := 1 / 3, w := 7 / 3, h := 1 / 7 },
     { className := "pothole", conf := 1, xc := 0, yc := 1, w := 1 / 5, h := -3 },
     { className := "Rutting", conf := 3 / 5, xc := 0, yc := 0, w := 1, h := 1 }]

/-- Its analysis of one image. -/
theorem analyse_satisfies_checks_pothole :
    ∃ outputs, analyse potholeModel potholeTable [⟨⟨"img-1"⟩, 1⟩] ⟨"analysis-1"⟩ 0 = .ok outputs ∧
      outputs.Checks ∧ outputs.quantize = outputs :=
  analyse_satisfies_checks potholeModel potholeTable [⟨⟨"img-1"⟩, 1⟩] ⟨"analysis-1"⟩ 0
    (by decide) (by unfold ActiveModel.ConfInRange; decide +kernel)

end RoadVisionAI.AnalysisWorker
