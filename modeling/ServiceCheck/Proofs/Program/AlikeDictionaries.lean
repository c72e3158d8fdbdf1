import Mathlib.Data.List.Forall2
import ServiceCheck.Dictionary

set_option autoImplicit false

namespace ServiceCheck

namespace Dictionary

variable {α β : Type} {R : α → β → Prop} {d : Dictionary α} {e : Dictionary β}

/-- Two dictionaries of one length in which every look-up gives related values. -/
structure Alike (R : α → β → Prop) (d : Dictionary α) (e : Dictionary β) : Prop where
  length_eq : d.length = e.length
  get? : ∀ key, Option.Rel R (Dictionary.get? d key) (Dictionary.get? e key)

theorem Alike.imp {S : α → β → Prop} (h : Alike R d e) (hRS : ∀ x y, R x y → S x y) :
    Alike S d e where
  length_eq := h.length_eq
  get? key := by
    have hkey := h.get? key
    generalize Dictionary.get? d key = x at hkey
    generalize Dictionary.get? e key = y at hkey
    cases hkey with
    | some hxy => exact .some (hRS _ _ hxy)
    | none => exact .none

theorem Alike.contains_eq (h : Alike R d e) (key : String) : contains d key = contains e key := by
  have hkey := h.get? key
  rw [contains, contains]
  generalize Dictionary.get? d key = x at hkey
  generalize Dictionary.get? e key = y at hkey
  cases hkey <;> rfl

theorem Alike.setNew (h : Alike R d e) (key : String) {x : α} {y : β} (hxy : R x y) :
    Alike R (setNew d key x) (setNew e key y) where
  length_eq := by
    rw [Dictionary.setNew, Dictionary.setNew, h.contains_eq]
    split
    · exact h.length_eq
    · simp [h.length_eq]
  get? other := by
    have hother := h.get? other
    rw [get?_setNew, get?_setNew]
    generalize Dictionary.get? d other = u at hother
    generalize Dictionary.get? e other = v at hother
    cases hother with
    | some hvalue => exact .some hvalue
    | none =>
      by_cases hkey : key = other
      · rw [if_pos hkey, if_pos hkey]
        exact .some hxy
      · rw [if_neg hkey, if_neg hkey]
        exact .none

/-- Tables filled from related items, each under its name, hold related values. -/
theorem Alike.foldl_setNew {name : α → String} {name' : β → String}
    (hname : ∀ x y, R x y → name x = name' y) {xs : List α} {ys : List β} (h : Alike R d e)
    (hitems : List.Forall₂ R xs ys) :
    Alike R (xs.foldl (fun d x => Dictionary.setNew d (name x) x) d)
      (ys.foldl (fun e y => Dictionary.setNew e (name' y) y) e) := by
  induction hitems generalizing d e with
  | nil => exact h
  | @cons x y _ _ hxy _ ih =>
    rw [List.foldl_cons, List.foldl_cons, ← hname x y hxy]
    exact ih (h.setNew (name x) hxy)

end Dictionary

end ServiceCheck
