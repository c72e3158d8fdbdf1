import ServiceCheck.FaultFlow.Analysis
import ServiceCheck.Proofs.FaultFlow.Forest

set_option autoImplicit false

namespace ServiceCheck

inductive ForestEdit where
  | addRoot
  | addChild (parent : Nat)
  | throw (scope : Nat) (fault : ThrownFault)
  | handle (scope : Nat) (handler : String)
deriving DecidableEq, Repr

namespace ForestEdit

def apply : ForestEdit → ScopeForest → ScopeForest
  | addRoot, f => f.addRoot
  | addChild parent, f => f.addChild parent
  | throw scope fault, f => f.throw scope fault
  | handle scope handler, f => f.handle scope (FaultFlow.caughtFault handler)

def Fits (f : ScopeForest) : ForestEdit → Prop
  | addRoot => True
  | addChild scope | throw scope _ | handle scope _ => scope < f.size

instance (f : ScopeForest) : (e : ForestEdit) → Decidable (e.Fits f)
  | addRoot => inferInstanceAs (Decidable True)
  | addChild _ | throw _ _ | handle _ _ => inferInstanceAs (Decidable (_ < f.size))

def thrownIn (scope : Nat) : ForestEdit → List ThrownFault
  | throw a fault => if a = scope then [fault] else []
  | _ => []

def caughtIn (scope : Nat) : ForestEdit → List CaughtFault
  | handle a handler => if a = scope then [FaultFlow.caughtFault handler] else []
  | _ => []

def throws (edits : List ForestEdit) (scope : Nat) : List ThrownFault :=
  edits.flatMap (·.thrownIn scope)

def handlers (edits : List ForestEdit) (scope : Nat) : List CaughtFault :=
  edits.flatMap (·.caughtIn scope)

variable {f : ScopeForest} {e : ForestEdit}

theorem sound_apply (hf : f.Sound) (h : e.Fits f) : (e.apply f).Sound := by
  cases e with
  | addRoot => exact hf.addRoot
  | addChild parent => exact hf.addChild h
  | throw scope fault => exact hf.of_sameLinks (ScopeForest.sameLinks_throw f scope fault)
  | handle scope handler => exact hf.of_sameLinks (ScopeForest.sameLinks_handle f scope _)

theorem pairwise_children_apply (hf : f.Sound) (h : e.Fits f)
    (hsorted : ∀ a, (f.children a).Pairwise (· < ·)) (a : Nat) :
    ((e.apply f).children a).Pairwise (· < ·) := by
  cases e with
  | addRoot =>
    rw [apply, ScopeForest.children_addRoot]
    exact hsorted a
  | addChild parent =>
    rw [apply, ScopeForest.children_addChild h, List.pairwise_append]
    refine ⟨hsorted a, by split <;> simp, fun child hchild new hnew => ?_⟩
    split at hnew
    · rw [List.mem_singleton.mp hnew]
      exact hf.lt_size_of_mem_children hchild
    · exact absurd hnew List.not_mem_nil
  | throw scope fault =>
    rw [apply, (ScopeForest.sameLinks_throw f scope fault).children_eq]
    exact hsorted a
  | handle scope handler =>
    rw [apply, (ScopeForest.sameLinks_handle f scope _).children_eq]
    exact hsorted a

theorem thrown_apply (h : e.Fits f) (scope : Nat) :
    (e.apply f).thrown scope = ThrownFault.merge (f.thrown scope) (e.thrownIn scope) := by
  cases e with
  | addRoot => exact ScopeForest.thrown_addRoot f scope
  | addChild parent => exact ScopeForest.thrown_addChild h scope
  | throw a fault =>
    by_cases ha : a = scope
    · subst ha
      rw [thrownIn, if_pos rfl]
      exact ScopeForest.thrown_throw_self h fault
    · rw [thrownIn, if_neg ha]
      exact ScopeForest.thrown_throw_other f (Ne.symm ha) fault
  | handle a handler => exact ScopeForest.thrown_handle f a scope _

theorem caught_apply (h : e.Fits f) (scope : Nat) :
    (e.apply f).caught scope = f.caught scope ++ e.caughtIn scope := by
  cases e with
  | addRoot => exact (ScopeForest.caught_addRoot f scope).trans (List.append_nil _).symm
  | addChild parent =>
    exact (ScopeForest.caught_addChild h scope).trans (List.append_nil _).symm
  | throw a fault =>
    exact (ScopeForest.caught_throw f a scope fault).trans (List.append_nil _).symm
  | handle a handler =>
    by_cases ha : a = scope
    · subst ha
      rw [caughtIn, if_pos rfl]
      exact ScopeForest.caught_handle_self h _
    · rw [caughtIn, if_neg ha, List.append_nil]
      exact ScopeForest.caught_handle_other f (Ne.symm ha) _

end ForestEdit

namespace ScopeForest

def edit (f : ScopeForest) (edits : List ForestEdit) : ScopeForest :=
  edits.foldl (fun f e => e.apply f) f

def built (edits : List ForestEdit) : ScopeForest := empty.edit edits

/-- Every edit is about a scope that exists when its turn comes. -/
def AllFit : ScopeForest → List ForestEdit → Prop
  | _, [] => True
  | f, e :: rest => e.Fits f ∧ AllFit (e.apply f) rest

instance : (f : ScopeForest) → (edits : List ForestEdit) → Decidable (f.AllFit edits)
  | _, [] => inferInstanceAs (Decidable True)
  | f, e :: rest =>
    have : Decidable ((e.apply f).AllFit rest) := instDecidableAllFit (e.apply f) rest
    inferInstanceAs (Decidable (e.Fits f ∧ (e.apply f).AllFit rest))

variable {f : ScopeForest} {edits : List ForestEdit}

theorem Sound.edit (hf : f.Sound) (h : f.AllFit edits) : (f.edit edits).Sound := by
  induction edits generalizing f with
  | nil => exact hf
  | cons e rest ih => exact ih (ForestEdit.sound_apply hf h.1) h.2

theorem pairwise_children_edit (hf : f.Sound) (h : f.AllFit edits)
    (hsorted : ∀ a, (f.children a).Pairwise (· < ·)) (a : Nat) :
    ((f.edit edits).children a).Pairwise (· < ·) := by
  induction edits generalizing f with
  | nil => exact hsorted a
  | cons e rest ih =>
    exact ih (ForestEdit.sound_apply hf h.1) h.2 (ForestEdit.pairwise_children_apply hf h.1 hsorted)

theorem thrown_edit (h : f.AllFit edits) (scope : Nat) :
    (f.edit edits).thrown scope =
      ThrownFault.merge (f.thrown scope) (ForestEdit.throws edits scope) := by
  induction edits generalizing f with
  | nil => rfl
  | cons e rest ih =>
    rw [ForestEdit.throws, List.flatMap_cons, ThrownFault.merge_append,
      ← ForestEdit.thrown_apply h.1]
    exact ih h.2

theorem caught_edit (h : f.AllFit edits) (scope : Nat) :
    (f.edit edits).caught scope = f.caught scope ++ ForestEdit.handlers edits scope := by
  induction edits generalizing f with
  | nil => exact (List.append_nil _).symm
  | cons e rest ih =>
    rw [ForestEdit.handlers, List.flatMap_cons, ← List.append_assoc, ← ForestEdit.caught_apply h.1]
    exact ih h.2

end ScopeForest

end ServiceCheck
