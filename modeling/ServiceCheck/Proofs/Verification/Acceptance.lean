import ServiceCheck.Verification.Verdict

set_option autoImplicit false

namespace ServiceCheck

theorem Diagnostics.hasErrors_eq_false_iff (ds : Diagnostics) :
    Diagnostics.hasErrors ds = false ↔ ∀ d ∈ ds, d.isError = false := by
  simp [hasErrors]

namespace Tables

theorem exists_inForce {ds : List Declaration} {d : Declaration} (h : d ∈ ds) (t : Tables) :
    ∃ t', (t', d) ∈ inForce t ds := by
  induction ds generalizing t with
  | nil => cases h
  | cons first rest ih =>
    rcases List.mem_cons.mp h with heq | hrest
    · exact ⟨t, heq ▸ List.mem_cons_self⟩
    · obtain ⟨t', ht'⟩ := ih hrest (t.declare first)
      exact ⟨t', List.mem_cons_of_mem _ ht'⟩

end Tables

namespace Program

variable {callerTypes : TypeMap} {config : Config} {p : Program} {v : Validated}

theorem verify_eq_accepted_iff :
    p.verify callerTypes config = .accepted v ↔
      p.comparesForever callerTypes = false ∧
        Diagnostics.hasErrors (p.problems callerTypes config) = false ∧
        v = ⟨(p.correlation callerTypes).1, p.executionMode, p.constants⟩ := by
  unfold verify
  by_cases hforever : p.comparesForever callerTypes
  · simp [hforever]
  · rw [if_neg hforever]
    by_cases herrors : Diagnostics.hasErrors (p.problems callerTypes config)
    · rw [if_pos herrors]
      simp [herrors]
    · rw [if_neg herrors]
      simp only [Bool.not_eq_true] at hforever herrors
      constructor
      · intro h
        exact ⟨hforever, herrors, (Verdict.accepted.inj h).symm⟩
      · intro h
        rw [h.2.2]

theorem verify_eq_unending_iff (callerTypes : TypeMap) (config : Config) (p : Program) :
    p.verify callerTypes config = .unending ↔ p.comparesForever callerTypes = true := by
  unfold verify
  split
  · simp [*]
  · dsimp only
    split <;> simp [*]

theorem correlation_of_accepted (h : p.verify callerTypes config = .accepted v) :
    v.correlation = (p.correlation callerTypes).1 := by
  rw [(verify_eq_accepted_iff.mp h).2.2]

end Program

end ServiceCheck
