import Mathlib.Data.Finset.Card
import Mathlib.Data.Finset.Dedup
import ServiceCheck.Verification.Redeclarations

set_option autoImplicit false

namespace ServiceCheck

section Named

variable {α : Type} {name : α → String}

theorem find?_firstNamed (taken : List String) (items : List α) (key : String) :
    (firstNamed name taken items).find? (name · = key) =
      if key ∈ taken then none else items.find? (name · = key) := by
  induction items generalizing taken with
  | nil => simp [firstNamed]
  | cons item rest ih =>
    by_cases hmem : name item ∈ taken
    · have hne : key ∉ taken → name item ≠ key := fun hkey heq => hkey (heq ▸ hmem)
      rw [firstNamed, if_pos hmem, ih]
      by_cases hkey : key ∈ taken
      · rw [if_pos hkey, if_pos hkey]
      · simp [hkey, hne hkey]
    · rw [firstNamed, if_neg hmem, List.find?_cons, ih]
      by_cases hname : name item = key
      · have hkey : key ∉ taken := hname ▸ hmem
        simp [hname, hkey]
      · simp [hname, Ne.symm hname]

theorem firstNamed_congr {taken taken' : List String} {items : List α}
    (h : ∀ key, key ∈ taken ↔ key ∈ taken') :
    firstNamed name taken items = firstNamed name taken' items := by
  induction items generalizing taken taken' with
  | nil => rfl
  | cons item rest ih =>
    have hnext : ∀ key, key ∈ name item :: taken ↔ key ∈ name item :: taken' := fun key => by
      rw [List.mem_cons, List.mem_cons, h]
    rw [firstNamed, firstNamed, ih h, ih hnext]
    simp only [h]

theorem not_mem_taken {taken : List String} {items : List α} {item : α}
    (h : item ∈ firstNamed name taken items) : name item ∉ taken := by
  induction items generalizing taken with
  | nil => simp [firstNamed] at h
  | cons first rest ih =>
    rw [firstNamed] at h
    by_cases hmem : name first ∈ taken
    · rw [if_pos hmem] at h
      exact ih h
    · rw [if_neg hmem] at h
      rcases List.mem_cons.mp h with heq | hrest
      · exact heq ▸ hmem
      · exact fun htaken => ih hrest (List.mem_cons_of_mem _ htaken)

theorem nodup_firstNamed (taken : List String) (items : List α) :
    ((firstNamed name taken items).map name).Nodup := by
  induction items generalizing taken with
  | nil => simp [firstNamed]
  | cons first rest ih =>
    rw [firstNamed]
    by_cases hmem : name first ∈ taken
    · rw [if_pos hmem]
      exact ih taken
    · rw [if_neg hmem, List.map_cons, List.nodup_cons]
      refine ⟨fun hin => ?_, ih _⟩
      obtain ⟨item, hitem, heq⟩ := List.mem_map.mp hin
      exact not_mem_taken hitem (heq ▸ List.mem_cons_self)

/-- An item is a later one unless its name is new. -/
theorem length_laterNamed_add_card (taken : List String) (items : List α) :
    (laterNamed name taken items).length +
      ((items.map name).toFinset \ taken.toFinset).card = items.length := by
  induction items generalizing taken with
  | nil => simp [laterNamed]
  | cons item rest ih =>
    rw [laterNamed, List.map_cons, List.toFinset_cons, List.length_cons]
    by_cases hmem : name item ∈ taken
    · rw [if_pos hmem, Finset.insert_sdiff_of_mem _ (List.mem_toFinset.mpr hmem), List.length_cons,
        ← ih taken]
      omega
    · -- the new name is counted here, and taken from here on
      have hnew : name item ∈ insert (name item) (rest.map name).toFinset \ taken.toFinset := by
        simpa using hmem
      have herase : (insert (name item) (rest.map name).toFinset \ taken.toFinset).erase
          (name item) = (rest.map name).toFinset \ (name item :: taken).toFinset := by
        rw [← Finset.sdiff_insert, Finset.insert_sdiff_of_mem _ (Finset.mem_insert_self _ _),
          List.toFinset_cons]
      rw [if_neg hmem, ← Finset.card_erase_add_one hnew, herase, ← ih (name item :: taken)]
      omega

theorem find?_of_mem {items : List α} (hitems : (items.map name).Nodup) {item : α}
    (h : item ∈ items) : items.find? (name · = name item) = some item := by
  induction items with
  | nil => cases h
  | cons first rest ih =>
    rw [List.map_cons, List.nodup_cons] at hitems
    rcases List.mem_cons.mp h with heq | hrest
    · simp [heq]
    · have hne : name first ≠ name item := fun heq =>
        hitems.1 (heq ▸ List.mem_map_of_mem hrest)
      simp [hne, ih hitems.2 hrest]

end Named

namespace CorrelationSet.RequestIndex

def listed (index : CorrelationSet.RequestIndex) (guardType : String) : List String :=
  (Dictionary.get? index guardType).getD []

end CorrelationSet.RequestIndex

namespace Program

variable (p : Program)

def registered? (operation : String) : Option Operation :=
  (p.inputPorts.flatMap (·.allOperations)).find? (·.id = operation)

theorem find?_firstOperations (operation : String) :
    p.firstOperations.find? (·.id = operation) = p.registered? operation := by
  rw [firstOperations, find?_firstNamed, if_neg List.not_mem_nil, exposedOperations, registered?,
    List.find?_flatMap, List.find?_flatMap]
  simp only [find?_firstNamed, List.not_mem_nil, if_false]

theorem mem_firstOperations_iff (o : Operation) :
    o ∈ p.firstOperations ↔ p.registered? o.id = some o := by
  rw [← find?_firstOperations]
  constructor
  · intro h
    exact find?_of_mem (nodup_firstNamed [] p.exposedOperations) h
  · exact List.mem_of_find?_eq_some

theorem listed_requestIndex (guardType : String) :
    p.requestIndex.listed guardType =
      (p.firstOperations.filter (·.request.id = guardType)).map (·.id) := by
  rw [CorrelationSet.RequestIndex.listed, requestIndex, Dictionary.get?_foldl_push]
  by_cases h : p.firstOperations.any (·.request.id = guardType)
  · simp [h, Dictionary.get?_nil]
  · have hnone : p.firstOperations.filter (·.request.id = guardType) = [] := by simpa using h
    simp [h, hnone, Dictionary.get?_nil]

theorem nodup_listed (guardType : String) : (p.requestIndex.listed guardType).Nodup := by
  rw [listed_requestIndex]
  exact List.Sublist.nodup (List.Sublist.map _ List.filter_sublist)
    (nodup_firstNamed [] p.exposedOperations)

theorem mem_listed_iff (operation guardType : String) :
    operation ∈ p.requestIndex.listed guardType ↔
      ∃ o, p.registered? operation = some o ∧ o.request.id = guardType := by
  rw [listed_requestIndex]
  simp only [List.mem_map, List.mem_filter, decide_eq_true_eq]
  constructor
  · intro ⟨o, ⟨ho, hguard⟩, hid⟩
    exact ⟨o, hid ▸ (p.mem_firstOperations_iff o).mp ho, hguard⟩
  · intro ⟨o, ho, hguard⟩
    have hid : o.id = operation := by simpa using List.find?_some ho
    exact ⟨o, ⟨(p.mem_firstOperations_iff o).mpr (hid ▸ ho), hguard⟩, hid⟩

end Program

end ServiceCheck
