import ServiceCheck.Program.Expression

set_option autoImplicit false

namespace ServiceCheck

def Expression.constantInt? : Expression → Option Int32
  | .literal (.int n) => some n
  | _ => none

namespace PathStep

def constants (s : PathStep) : Option String × Option (Option Int32) :=
  (s.key.constantString?, s.index.map Expression.constantInt?)

inductive Static : PathStep → Prop where
  | key (name : String) : Static ⟨.literal (.string name), none⟩
  | index (name : String) (n : Int32) :
    Static ⟨.literal (.string name), some (.literal (.int n))⟩

theorem static_of_isStatic {s : PathStep} (h : s.isStatic = true) : s.Static := by
  obtain ⟨key, index⟩ := s
  obtain ⟨hkey, hindex⟩ : key.constantString?.isSome = true ∧
      index.all (·.isConstantInt) = true := by simpa [isStatic] using h
  have hname : ∃ name, key = .literal (.string name) := by
    unfold Expression.constantString? at hkey
    split at hkey
    · exact ⟨_, rfl⟩
    · cases hkey
  obtain ⟨name, rfl⟩ := hname
  cases index with
  | none => exact .key name
  | some i =>
    have hint : ∃ n, i = .literal (.int n) := by
      simp only [Option.all_some, Expression.isConstantInt] at hindex
      split at hindex
      · exact ⟨_, rfl⟩
      · cases hindex
    obtain ⟨n, rfl⟩ := hint
    exact .index name n

theorem allAgree_cons_iff {s t : PathStep} (hs : s.Static) (ht : t.Static)
    (ss ts : List PathStep) :
    allAgree (s :: ss) (t :: ts) = true ↔ s.constants = t.constants ∧ allAgree ss ts = true := by
  cases hs <;> cases ht <;>
    simp [allAgree, constants, Expression.agrees, Literal.agrees, Expression.constantString?,
      Expression.constantInt?, and_assoc]

theorem allAgree_iff {ss ts : List PathStep} (hs : ∀ s ∈ ss, s.Static) (ht : ∀ t ∈ ts, t.Static) :
    allAgree ss ts = true ↔ ss.map constants = ts.map constants := by
  induction ss generalizing ts with
  | nil => cases ts <;> simp [allAgree]
  | cons s ss ih =>
    cases ts with
    | nil => simp [allAgree]
    | cons t ts =>
      rw [allAgree_cons_iff (hs s List.mem_cons_self) (ht t List.mem_cons_self),
        ih (fun u hu => hs u (List.mem_cons_of_mem _ hu))
          (fun u hu => ht u (List.mem_cons_of_mem _ hu))]
      simp

end PathStep

namespace VariablePath

theorem static_of_mem_steps {p : VariablePath} (h : p.isStatic = true) :
    ∀ s ∈ p.steps, s.Static := fun s hs =>
  PathStep.static_of_isStatic (List.all_eq_true.mp h s hs)

theorem samePath_iff {p q : VariablePath} (hp : p.isStatic = true) (hq : q.isStatic = true) :
    p.samePath q = true ↔
      p.kind = q.kind ∧ p.steps.map PathStep.constants = q.steps.map PathStep.constants := by
  rw [samePath, Bool.and_eq_true, decide_eq_true_eq,
    PathStep.allAgree_iff (static_of_mem_steps hp) (static_of_mem_steps hq)]

theorem samePath_refl {p : VariablePath} (h : p.isStatic = true) : p.samePath p = true :=
  (samePath_iff h h).mpr ⟨rfl, rfl⟩

theorem samePath_comm {p q : VariablePath} (hp : p.isStatic = true) (hq : q.isStatic = true) :
    p.samePath q = q.samePath p := by
  rw [Bool.eq_iff_iff, samePath_iff hp hq, samePath_iff hq hp, eq_comm, @eq_comm _ (p.steps.map _)]

theorem exists_keys {p : VariablePath} (h : p.isStatic = true) : ∃ keys, p.keys? = some keys := by
  have hall : ∀ steps : List PathStep, (∀ s ∈ steps, s.Static) →
      ∃ keys, steps.mapM (·.key.constantString?) = some keys := by
    intro steps hsteps
    induction steps with
    | nil => exact ⟨[], rfl⟩
    | cons s rest ih =>
      obtain ⟨keys, hkeys⟩ := ih fun t ht => hsteps t (List.mem_cons_of_mem _ ht)
      have hname : ∃ name, s.key.constantString? = some name := by
        cases hsteps s List.mem_cons_self <;> exact ⟨_, rfl⟩
      obtain ⟨name, hname⟩ := hname
      exact ⟨name :: keys, by simp [List.mapM_cons, hname, hkeys]⟩
  exact hall p.steps (static_of_mem_steps h)

end VariablePath

end ServiceCheck
