import Mathlib.Data.List.DropRight
import Mathlib.Data.String.Basic
import ServiceCheck.Text.Line

/-!
The part of a line that a diagnostic marks, in bytes. The line is trimmed twice, once at each end,
and the lengths of what is left give the two offsets. They can only meet on a blank line, where
both are at the end.
-/

set_option autoImplicit false

namespace ServiceCheck.Text

theorem utf8Length_eq_utf8Len (text : List Char) : utf8Length text = String.utf8Len text := by
  induction text with
  | nil => rfl
  | cons c cs ih => rw [utf8Length, String.utf8Len_cons, ih, Nat.add_comm]

theorem utf8Length_append (text more : List Char) :
    utf8Length (text ++ more) = utf8Length text + utf8Length more := by
  simp only [utf8Length_eq_utf8Len, String.utf8Len_append]

theorem utf8Length_toList (text : String) : utf8Length text.toList = text.utf8ByteSize := by
  rw [utf8Length_eq_utf8Len, String.utf8Len_toList]

theorem utf8Length_pos {text : List Char} (h : text ≠ []) : 0 < utf8Length text := by
  rw [utf8Length_eq_utf8Len, Nat.pos_iff_ne_zero, ne_eq, String.utf8Len_eq_zero]
  exact h

theorem splitAtByte_utf8Length (front back : List Char) :
    splitAtByte (utf8Length front) (front ++ back) = (front, back) := by
  induction front with
  | nil =>
    cases back with
    | nil => rfl
    | cons c cs =>
      have hpos := c.utf8Size_pos
      rw [utf8Length, List.nil_append, splitAtByte, if_neg (by omega)]
  | cons c cs ih =>
    rw [utf8Length, List.cons_append, splitAtByte, if_pos (Nat.le_add_right ..),
      Nat.add_sub_cancel_left, ih]

/-- A text between blanks that neither starts nor ends with one. -/
structure Trims (before middle after : List Char) : Prop where
  before : ∀ c ∈ before, isBlank c
  after : ∀ c ∈ after, isBlank c
  head : ∀ c ∈ middle.head?, ¬isBlank c
  last : ∀ c ∈ middle.getLast?, ¬isBlank c

theorem exists_trims (line : List Char) :
    ∃ before middle after, line = before ++ middle ++ after ∧ Trims before middle after := by
  have hfront : line.takeWhile isBlank ++ line.dropWhile isBlank = line :=
    List.takeWhile_append_dropWhile
  have hback : (line.dropWhile isBlank).rdropWhile isBlank ++
      (line.dropWhile isBlank).rtakeWhile isBlank = line.dropWhile isBlank :=
    List.rdropWhile_append_rtakeWhile
  refine ⟨line.takeWhile isBlank, (line.dropWhile isBlank).rdropWhile isBlank,
    (line.dropWhile isBlank).rtakeWhile isBlank, ?_, fun c => List.mem_takeWhile_imp,
    fun c => List.mem_rtakeWhile_imp, fun c hc => ?_, fun c hc => ?_⟩
  · rw [List.append_assoc, hback, hfront]
  · -- what is first after both trims was first after the one at the front
    have hhead : c ∈ (line.dropWhile isBlank).head? := by
      rw [← hback, List.head?_append, Option.mem_def.mp hc, Option.some_or]
      rfl
    have hnot := List.head?_dropWhile_not isBlank line
    rw [Option.mem_def.mp hhead] at hnot
    simpa using hnot
  · obtain ⟨hne, rfl⟩ := List.mem_getLast?_eq_getLast hc
    exact List.rdropWhile_last_not _ _ hne

section Trims

variable {before middle after : List Char} (h : Trims before middle after) (hne : middle ≠ [])

include h hne

theorem Trims.trimStart_eq : trimStart (before ++ middle ++ after) = middle ++ after := by
  obtain ⟨c, cs, rfl⟩ := List.exists_cons_of_ne_nil hne
  rw [trimStart, List.append_assoc, List.dropWhile_append_of_pos h.before, List.cons_append,
    List.dropWhile_cons_of_neg (h.head c rfl)]

theorem Trims.trimEnd_eq : trimEnd (before ++ middle ++ after) = before ++ middle := by
  obtain ⟨cs, c, rfl⟩ := (List.eq_nil_or_concat middle).resolve_left hne
  have hafter : ∀ d ∈ after.reverse, isBlank d := fun d hd => h.after d (List.mem_reverse.mp hd)
  have hlast : ¬isBlank c := h.last c (by simp)
  rw [trimEnd, List.reverse_append, List.dropWhile_append_of_pos hafter]
  simp [hlast]

theorem Trims.markedRange_eq :
    markedRange (before ++ middle ++ after) =
      (utf8Length before, utf8Length (before ++ middle)) := by
  have hpos := utf8Length_pos hne
  have hstart : utf8Length (before ++ middle ++ after) - utf8Length (middle ++ after) =
      utf8Length before := by
    simp only [utf8Length_append]
    omega
  simp only [markedRange, h.trimStart_eq hne, h.trimEnd_eq hne, hstart]
  rw [if_neg]
  simp only [utf8Length_append]
  omega

end Trims

theorem markedRange_of_blank {line : List Char} (h : ∀ c ∈ line, isBlank c) :
    markedRange line = (utf8Length line, utf8Length line) := by
  have hstart : trimStart line = [] := List.dropWhile_eq_nil_iff.mpr h
  have hend : trimEnd line = [] := List.rdropWhile_eq_nil_iff.mpr h
  simp [markedRange, hstart, hend, utf8Length]

/-- Two offsets into a text, in order and each between two characters or at an end. -/
structure Cuts (text : String) (start stop : Nat) : Prop where
  start_le : start ≤ stop
  stop_le : stop ≤ text.utf8ByteSize
  start_valid : (String.Pos.Raw.mk start).IsValid text
  stop_valid : (String.Pos.Raw.mk stop).IsValid text

section Parts

variable {before middle after : List Char}

theorem mark_eq (h : markedRange (before ++ middle ++ after) =
      (utf8Length before, utf8Length (before ++ middle))) :
    mark (before ++ middle ++ after) = ⟨before, middle, after⟩ := by
  have hlength : utf8Length (before ++ middle) - utf8Length before = utf8Length middle := by
    rw [utf8Length_append, Nat.add_sub_cancel_left]
  simp only [mark, h, hlength]
  rw [List.append_assoc]
  simp only [splitAtByte_utf8Length]

variable {text : String} (htext : text.toList = before ++ middle ++ after)

include htext

theorem cuts_of_append : Cuts text (utf8Length before) (utf8Length (before ++ middle)) := by
  have hvalid : ∀ front back, text.toList = front ++ back →
      (String.Pos.Raw.mk (utf8Length front)).IsValid text := by
    intro front back hsplit
    refine String.Pos.Raw.isValid_iff_exists_append.mpr
      ⟨String.ofList front, String.ofList back, ?_, ?_⟩
    · rw [← String.ofList_append, ← hsplit, String.ofList_toList]
    · rw [String.rawEndPos_ofList, utf8Length_eq_utf8Len]
  refine ⟨?_, ?_, hvalid before (middle ++ after) ?_, hvalid (before ++ middle) after htext⟩
  · rw [utf8Length_append]
    exact Nat.le_add_right ..
  · rw [← utf8Length_toList, htext, utf8Length_append _ after]
    exact Nat.le_add_right ..
  · rw [htext, List.append_assoc]

theorem extract_of_append :
    String.Pos.Raw.extract text ⟨utf8Length before⟩ ⟨utf8Length (before ++ middle)⟩ =
      String.ofList middle := by
  rw [← String.ofList_toList (s := text), htext, utf8Length_append, utf8Length_eq_utf8Len,
    utf8Length_eq_utf8Len]
  exact String.extract_of_valid before middle after

end Parts

/-- The range of a line is its text without the blank ends, and that of a blank line is empty at
the end. Cutting the line at the offsets of the range parts no character. -/
theorem markedRange_trims (line : String) :
    Cuts line (markedRange line.toList).1 (markedRange line.toList).2 ∧
      if line.toList.all isBlank then
        markedRange line.toList = (line.utf8ByteSize, line.utf8ByteSize) ∧
          mark line.toList = ⟨line.toList, [], []⟩
      else
        ∃ before middle after : List Char, line.toList = before ++ middle ++ after ∧
          Trims before middle after ∧ mark line.toList = ⟨before, middle, after⟩ ∧
          String.Pos.Raw.extract line ⟨(markedRange line.toList).1⟩
            ⟨(markedRange line.toList).2⟩ = String.ofList middle := by
  by_cases hblank : line.toList.all isBlank
  · have hrange := markedRange_of_blank (List.all_eq_true.mp hblank)
    have hline : line.toList = line.toList ++ [] ++ [] := by simp
    have hmark : mark (line.toList ++ [] ++ []) = ⟨line.toList, [], []⟩ :=
      mark_eq (by simp only [List.append_nil, hrange])
    have hcuts := cuts_of_append hline
    rw [← hline] at hmark
    rw [List.append_nil] at hcuts
    rw [if_pos hblank, hrange, ← utf8Length_toList]
    exact ⟨hcuts, rfl, hmark⟩
  · obtain ⟨before, middle, after, hline, htrims⟩ := exists_trims line.toList
    have hne : middle ≠ [] := by
      rintro rfl
      refine hblank (List.all_eq_true.mpr fun c hc => ?_)
      rw [hline, List.append_nil] at hc
      exact (List.mem_append.mp hc).elim (htrims.before c) (htrims.after c)
    have hrange := htrims.markedRange_eq hne
    have hmark := mark_eq hrange
    rw [← hline] at hrange hmark
    rw [if_neg hblank, hrange]
    exact ⟨cuts_of_append hline, before, middle, after, hline, htrims, hmark,
      extract_of_append hline⟩

/-- Ideographic spaces at both ends, of three bytes each, and a line of nothing else. -/
example : markedRange "\u3000a b\u3000".toList = (3, 6) ∧ markedRange "\u3000".toList = (3, 3) := by
  decide +kernel

end ServiceCheck.Text
