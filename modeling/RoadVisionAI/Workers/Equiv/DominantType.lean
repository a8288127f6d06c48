import RoadVisionAI.Engines.Equiv.Breakdown
import RoadVisionAI.Workers.AnalysisWorker

/-!
# The dominant damage type

The worker takes the largest entry of the breakdown, whose deductions have four decimals, and the
first in code order where several are equal.  The type it stores is therefore within one unit of the
fourth decimal of the largest exact deduction, and has it exactly when it is the first of those that
look alike (`dominantType_spec`).
-/

namespace RoadVisionAI.AnalysisWorker

open Python PciEngine

variable {K : Type*} [Field K] [LinearOrder K] [IsStrictOrderedRing K] [FloorRing K]
variable {dets : List (DetectionInput K)} {n : ℤ} {code code' : String}

/-- The deduction of a type, before rounding. -/
def exactDeduction (dets : List (DetectionInput K)) (n : ℤ) (code : String) : K :=
  deduction (ofCode dets code) n

/-- Its entry in the breakdown. -/
def reportedDeduction (dets : List (DetectionInput K)) (n : ℤ) (code : String) : K :=
  pyRound (exactDeduction dets n code) 4

/-- No type removes more. -/
def Maximal (dets : List (DetectionInput K)) (n : ℤ) (code : String) : Prop :=
  ∀ code' ∈ codes dets, exactDeduction dets n code' ≤ exactDeduction dets n code

/-- The first, in code order, of the types with the largest entry. -/
structure Leads (dets : List (DetectionInput K)) (n : ℤ) (code : String) : Prop where
  mem : code ∈ codes dets
  largest : ∀ code' ∈ codes dets, reportedDeduction dets n code' ≤ reportedDeduction dets n code
  first : ∀ code' ∈ codes dets, reportedDeduction dets n code' = reportedDeduction dets n code →
    code ≤ code'

/-- The entries of the breakdown, in code order. -/
theorem exists_deductions (hn : 1 ≤ n) (hv : ∀ d ∈ dets, d.Valid) :
    ∃ pci, computePci dets n = .ok pci ∧ ∃ entry : String → TypeDeduction K,
      pci.deductions = (codes dets).sort.map entry ∧
      ∀ code, (entry code).damageCode = code ∧
        (entry code).deduction = reportedDeduction dets n code := by
  refine ⟨_, computePci_eq hn hv, cdcTypeDeduction dets n, rfl, fun code => ⟨rfl, ?_⟩⟩
  rw [reportedDeduction, exactDeduction, deduction_eq (valid_ofCode hv code)]
  rfl

/-- In the list of a set in order, an earlier element is smaller. -/
theorem le_of_idxOf_le {codes : Finset String} (hcode : code ∈ codes) (hcode' : code' ∈ codes)
    (h : codes.sort.idxOf code ≤ codes.sort.idxOf code') : code ≤ code' := by
  have hlt := List.idxOf_lt_length_of_mem ((Finset.mem_sort (· ≤ ·)).mpr hcode)
  have hlt' := List.idxOf_lt_length_of_mem ((Finset.mem_sort (· ≤ ·)).mpr hcode')
  have hsorted := codes.pairwise_sort (· ≤ ·)
  have hle : (codes.sort)[codes.sort.idxOf code] ≤ (codes.sort)[codes.sort.idxOf code'] :=
    hsorted.sortedLE.getElem_le_getElem_of_le h
  rwa [List.getElem_idxOf, List.getElem_idxOf] at hle

omit [Field K] [IsStrictOrderedRing K] [FloorRing K] in
/-- The position of an entry is that of its code. -/
theorem idxOf_map_entry {entry : String → TypeDeduction K} (hinj : Function.Injective entry)
    (codes : List String) (code : String) :
    (codes.map entry).idxOf (entry code) = codes.idxOf code := by
  rw [List.idxOf, List.findIdx_map, List.idxOf]
  congr 1
  ext code'
  simp [hinj.eq_iff]

/-- The first of the largest in a list in code order. -/
theorem leads_of_argmax {entry : String → TypeDeduction K}
    (hentry : ∀ code, (entry code).damageCode = code ∧
      (entry code).deduction = reportedDeduction dets n code)
    {largest : TypeDeduction K}
    (h : largest ∈ ((codes dets).sort.map entry).argmax TypeDeduction.deduction) :
    Leads dets n largest.damageCode := by
  obtain ⟨hmem, hlargest, hfirst⟩ := List.mem_argmax_iff.mp h
  obtain ⟨code, hcode, rfl⟩ := List.mem_map.mp hmem
  have hinj : Function.Injective entry := fun c c' heq => by
    rw [← (hentry c).1, heq, (hentry c').1]
  have hentries : ∀ code' ∈ codes dets, entry code' ∈ (codes dets).sort.map entry :=
    fun code' hcode' => List.mem_map_of_mem ((Finset.mem_sort _).mpr hcode')
  rw [(hentry code).1]
  refine ⟨(Finset.mem_sort _).mp hcode, ?_, ?_⟩
  · intro code' hcode'
    rw [← (hentry code).2, ← (hentry code').2]
    exact hlargest _ (hentries code' hcode')
  · intro code' hcode' heq
    rw [← (hentry code).2, ← (hentry code').2] at heq
    have hidx := hfirst _ (hentries code' hcode') heq.ge
    rw [idxOf_map_entry hinj, idxOf_map_entry hinj] at hidx
    exact le_of_idxOf_le ((Finset.mem_sort _).mp hcode) hcode' hidx

/-- What leads is stored. -/
theorem exists_dominantType (hn : 1 ≤ n) (hv : ∀ d ∈ dets, d.Valid) (hne : dets ≠ []) :
    ∃ pci code, computePci dets n = .ok pci ∧ dominantType pci = some code ∧ Leads dets n code := by
  obtain ⟨pci, hpci, entry, hdeductions, hentry⟩ := exists_deductions hn hv
  obtain ⟨d, hd⟩ := List.exists_mem_of_ne_nil dets hne
  have hcode : d.damageCode ∈ (codes dets).sort :=
    (Finset.mem_sort _).mpr (mem_codes.mpr ⟨d, hd, rfl⟩)
  have hmem : entry d.damageCode ∈ pci.deductions := by
    rw [hdeductions]
    exact List.mem_map_of_mem hcode
  have hsome : pci.deductions.argmax TypeDeduction.deduction ≠ none := fun hnone =>
    List.ne_nil_of_mem hmem (List.argmax_eq_none.mp hnone)
  obtain ⟨largest, hlargest⟩ := Option.ne_none_iff_exists'.mp hsome
  refine ⟨pci, largest.damageCode, hpci, ?_, leads_of_argmax hentry ?_⟩
  · rw [dominantType, hlargest, Option.map_some]
  · rwa [hdeductions] at hlargest

/-- Rounding hides less than a unit of the last decimal. -/
theorem exactDeduction_le (h : reportedDeduction dets n code' ≤ reportedDeduction dets n code) :
    exactDeduction dets n code' ≤ exactDeduction dets n code + 1 / 10 ^ 4 := by
  have hcode := abs_le.mp (halfEven.abs_sub_toPlaces_le (exactDeduction dets n code) 4)
  have hcode' := abs_le.mp (halfEven.abs_sub_toPlaces_le (exactDeduction dets n code') 4)
  simp only [reportedDeduction, pyRound] at h
  linarith [hcode.1, hcode'.2]

/-- A larger deduction has a larger entry. -/
theorem reportedDeduction_mono (h : exactDeduction dets n code' ≤ exactDeduction dets n code) :
    reportedDeduction dets n code' ≤ reportedDeduction dets n code :=
  halfEven.toPlaces_mono 4 h

/-- The type that leads has the largest deduction exactly when it is the first of those that look
like a largest one. -/
theorem Leads.maximal_iff (hleads : Leads dets n code) :
    Maximal dets n code ↔ ∃ top ∈ codes dets, Maximal dets n top ∧
      ∀ code' ∈ codes dets, reportedDeduction dets n code' = reportedDeduction dets n top →
        top ≤ code' := by
  constructor
  · exact fun hmaximal => ⟨code, hleads.mem, hmaximal, hleads.first⟩
  · rintro ⟨top, htop, hmaximal, hfirst⟩
    have heq : reportedDeduction dets n code = reportedDeduction dets n top :=
      le_antisymm (reportedDeduction_mono (hmaximal code hleads.mem)) (hleads.largest top htop)
    have hsame : top = code :=
      le_antisymm (hfirst code hleads.mem heq) (hleads.first top htop heq.symm)
    rwa [← hsame]

/-- **The stored type dominates up to the rounding of the breakdown.** -/
theorem dominantType_spec (hn : 1 ≤ n) (hv : ∀ d ∈ dets, d.Valid) (hne : dets ≠ []) :
    ∃ pci code, computePci dets n = .ok pci ∧ dominantType pci = some code ∧ Leads dets n code ∧
      (∀ code' ∈ codes dets, exactDeduction dets n code' ≤ exactDeduction dets n code + 1 / 10 ^ 4) ∧
      (Maximal dets n code ↔ ∃ top ∈ codes dets, Maximal dets n top ∧
        ∀ code' ∈ codes dets, reportedDeduction dets n code' = reportedDeduction dets n top →
          top ≤ code') := by
  obtain ⟨pci, code, hpci, hdominant, hleads⟩ := exists_dominantType hn hv hne
  refine ⟨pci, code, hpci, hdominant, hleads, ?_, hleads.maximal_iff⟩
  exact fun code' hcode' => exactDeduction_le (hleads.largest code' hcode')

/-- A hundred images, one with cracks on a tenth of it and one with potholes on a little more. -/
def nearTie : List (DetectionInput ℚ) := [
  { damageCode := "ALLIGATOR_CRACK", pciWeight := 1 / 2, severity := 1 / 2, relArea := 1 / 10,
    imageId := "img1" },
  { damageCode := "POTHOLE", pciWeight := 1 / 2, severity := 1 / 2, relArea := 1001 / 10000,
    imageId := "img2" }]

/-- The result on the two. -/
theorem dominantType_spec_nearTie :
    ∃ pci code, computePci nearTie 100 = .ok pci ∧ dominantType pci = some code ∧
      Leads nearTie 100 code ∧
      (∀ code' ∈ codes nearTie,
        exactDeduction nearTie 100 code' ≤ exactDeduction nearTie 100 code + 1 / 10 ^ 4) ∧
      (Maximal nearTie 100 code ↔ ∃ top ∈ codes nearTie, Maximal nearTie 100 top ∧
        ∀ code' ∈ codes nearTie,
          reportedDeduction nearTie 100 code' = reportedDeduction nearTie 100 top → top ≤ code') :=
  dominantType_spec (by norm_num) (by decide +kernel) (by decide)

/-- Both entries read 0.0250, and the cracks come first: the potholes remove more and are not
stored. -/
theorem not_maximal_nearTie :
    (computePci nearTie 100).map dominantType = .ok (some "ALLIGATOR_CRACK") ∧
      "POTHOLE" ∈ codes nearTie ∧
      exactDeduction nearTie 100 "ALLIGATOR_CRACK" < exactDeduction nearTie 100 "POTHOLE" ∧
      ¬ Maximal nearTie 100 "ALLIGATOR_CRACK" := by
  have hless :
      exactDeduction nearTie 100 "ALLIGATOR_CRACK" < exactDeduction nearTie 100 "POTHOLE" := by
    decide +kernel
  have hpothole : "POTHOLE" ∈ codes nearTie := by decide +kernel
  refine ⟨?_, hpothole, hless, fun hmaximal => ?_⟩
  · decide +kernel
  · exact (hmaximal "POTHOLE" hpothole).not_gt hless

end RoadVisionAI.AnalysisWorker
