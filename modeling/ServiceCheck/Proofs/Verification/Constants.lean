import Mathlib.Data.List.Induction
import ServiceCheck.Program.Construction
import ServiceCheck.Proofs.Verification.Acceptance
import ServiceCheck.Proofs.Verification.JudgedNodes

set_option autoImplicit false

namespace ServiceCheck

namespace Dictionary

/-- Notes one more write: a name is constant when it is new, and no longer when it is met again. -/
def note (d : Dictionary Bool) (name : String) : Dictionary Bool := set d name (!contains d name)

/-- What is left noted of some writes. The names stand in the order of their first write. -/
structure Notes (writes : List String) (d : Dictionary Bool) : Prop where
  mem_keys_iff : ∀ name, name ∈ keys d ↔ name ∈ writes
  order : (keys d).Pairwise fun a b => writes.idxOf a < writes.idxOf b
  constant : ∀ name ∈ writes, get? d name = some (decide (writes.count name = 1))

variable {writes : List String} {d : Dictionary Bool}

theorem Notes.nodup_keys (h : Notes writes d) : (keys d).Nodup :=
  h.order.imp fun hlt heq => Nat.ne_of_lt hlt (congrArg (writes.idxOf ·) heq)

theorem keys_note (d : Dictionary Bool) (name : String) :
    keys (d.note name) = if name ∈ keys d then keys d else keys d ++ [name] := keys_set d name _

theorem get?_note (d : Dictionary Bool) (name other : String) :
    get? (d.note name) other =
      if other = name then some (decide (name ∉ keys d)) else get? d other := by
  have hcontains : contains d name = decide (name ∈ keys d) := by
    rw [Bool.eq_iff_iff, decide_eq_true_eq]
    exact get?_isSome_iff d name
  by_cases h : other = name
  · rw [if_pos h, h, note, get?_set_self, hcontains, decide_not]
  · rw [if_neg h, note, get?_set_other _ _ h]

theorem Notes.note (h : Notes writes d) (name : String) :
    Notes (writes ++ [name]) (d.note name) where
  mem_keys_iff other := by
    rw [keys_note, List.mem_append, List.mem_singleton]
    split
    · rename_i hmem
      rw [h.mem_keys_iff, iff_self_or]
      rintro rfl
      exact (h.mem_keys_iff _).mp hmem
    · rw [List.mem_append, List.mem_singleton, h.mem_keys_iff]
  order := by
    have hold : (keys d).Pairwise fun a b =>
        (writes ++ [name]).idxOf a < (writes ++ [name]).idxOf b := by
      refine h.order.imp_of_mem fun ha hb hlt => ?_
      rwa [List.idxOf_append_of_mem ((h.mem_keys_iff _).mp ha),
        List.idxOf_append_of_mem ((h.mem_keys_iff _).mp hb)]
    rw [keys_note]
    split
    · exact hold
    · rename_i hnew
      refine List.pairwise_append.mpr ⟨hold, List.pairwise_singleton _ _, fun a ha b hb => ?_⟩
      obtain rfl := List.mem_singleton.mp hb
      have hmem := (h.mem_keys_iff a).mp ha
      have hlt := List.idxOf_lt_length_iff.mpr hmem
      rw [h.mem_keys_iff] at hnew
      rw [List.idxOf_append_of_mem hmem, List.idxOf_append_of_notMem hnew]
      omega
  constant other hother := by
    rw [get?_note, List.count_append]
    by_cases heq : other = name
    · subst heq
      have hcount : other ∉ keys d ↔ writes.count other + 1 = 1 := by
        rw [h.mem_keys_iff, ← List.count_eq_zero]
        omega
      rw [if_pos rfl, List.count_singleton_self, decide_eq_decide.mpr hcount]
    · have hmem : other ∈ writes := by simpa [heq] using hother
      simp [heq, Ne.symm heq, h.constant other hmem]

theorem notes_foldl (writes : List String) : Notes writes (writes.foldl note []) := by
  induction writes using List.reverseRecOn with
  | nil => exact ⟨fun _ => Iff.rfl, .nil, fun _ h => (List.not_mem_nil h).elim⟩
  | append_singleton writes name ih =>
    rw [List.foldl_append]
    exact ih.note name

theorem keys_foldl_note (writes : List String) :
    keys (writes.foldl note []) = writes.eraseDups := by
  induction writes using List.reverseRecOn with
  | nil => rfl
  | append_singleton writes name ih =>
    have hlast : [name].removeAll writes = if name ∈ writes then [] else [name] := by
      by_cases h : name ∈ writes <;> simp [List.removeAll, h]
    rw [List.foldl_append, List.foldl_cons, List.foldl_nil, keys_note, ih, List.eraseDups_append,
      hlast]
    by_cases h : name ∈ writes <;> simp [h, List.eraseDups_cons]

end Dictionary

open Dictionary (keys get? Notes)

def Statement.targets : Statement → List VariablePath
  | .oneWay _ _ input | .requestResponse _ _ input _ _ | .solicitResponse _ _ _ _ input =>
    input.toList
  | .assign _ path _ | .compoundAssign _ _ path _ | .step _ _ path | .undef _ path
  | .deepCopy _ path _ => [path]
  | .pointer _ left right => [left, right]
  | _ => []

namespace Node

def writes : Node → List String
  | .statement s => s.targets.filterMap VariablePath.rootName?
  | .outputPort p => [p.id]
  | _ => []

theorem writes_node (site : Site) : site.node.writes = site.writes := by
  cases site with
  | path => rfl
  | statement courier s => cases s <;> rfl

theorem writes_of_isOperand {x : Node} (hx : x.isOperand) : x.writes = [] := by
  cases x <;> first | rfl | cases hx

/-- In a behaviour all writes are met by the sites. -/
theorem flatMap_sites_writes (s : Statement) :
    (s.sites none).flatMap Site.writes = (statement s).written.flatMap writes := by
  have hside : unlessSide writes = fun e => e.2.writes := by
    funext ⟨whole, x⟩
    rw [unlessSide, ite_eq_right_iff]
    intro h
    cases x <;> simp only [isSide, Bool.and_eq_true, Bool.false_eq_true] at h
    obtain ⟨position, branches, rfl⟩ := (Statement.isChoice_iff _).mp h.1
    rfl
  have hsites := flatMap_sites (fun _ => writes_of_isOperand) (.statement s) rfl none none
    (Bool.and_false _)
  rw [hside] at hsites
  rw [← map_snd_writtenIn none, List.flatMap_map, ← hsites]
  exact List.flatMap_congr fun site _ => (writes_node site).symm

theorem writes_of_mem_parts {x y : Node} (hx : x.isDeclarative) (h : y ∈ x.parts) :
    y.writes = [] := by
  cases x <;> cases hx
  case type | expression | path => exact writes_of_isOperand (isOperand_of_mem_parts rfl h)
  case interface | operation =>
    obtain ⟨_, -, rfl⟩ := List.mem_map.mp h
    rfl
  case inputPort | outputPort =>
    rcases List.mem_append.mp h with h | h <;> obtain ⟨_, -, rfl⟩ := List.mem_map.mp h <;> rfl
  case correlationSet =>
    obtain ⟨v, -, h⟩ := List.mem_flatMap.mp h
    rcases List.mem_cons.mp h with rfl | h
    · rfl
    · obtain ⟨_, -, rfl⟩ := List.mem_map.mp h
      rfl
  case execution | embeddedService => cases h

theorem flatMap_writes_of_isDeclarative {x : Node} (hx : x.isDeclarative) :
    x.written.flatMap writes = x.writes := by
  induction x using Node.induction with
  | step x ih =>
    rw [written_eq, List.flatMap_cons, List.flatMap_assoc, List.flatMap_eq_nil_iff.mpr,
      List.append_nil]
    intro y hy
    rw [ih y hy (isDeclarative_of_mem_parts hx hy), writes_of_mem_parts hx hy]

end Node

theorem Declaration.flatMap_writes (d : Declaration) :
    (Node.declaration d).written.flatMap Node.writes = d.writes := by
  have hpart : ∀ x : Node, (Node.declaration d).parts = [x] →
      (Node.declaration d).written.flatMap Node.writes = x.written.flatMap Node.writes := by
    intro x hx
    rw [Node.written_eq, hx, List.flatMap_cons, List.flatMap_singleton]
    rfl
  have hbody : ∀ x s, (Node.declaration d).parts = [x] → x.parts = [.statement s] →
      x.writes = [] →
      (Node.declaration d).written.flatMap Node.writes = (s.sites none).flatMap Site.writes := by
    intro x s hx hs hnone
    rw [hpart x hx, Node.written_eq, hs, List.flatMap_cons, List.flatMap_singleton, hnone,
      Node.flatMap_sites_writes, List.nil_append]
  cases d
  case procedure p => exact hbody _ p.body rfl rfl rfl
  case courier c => exact hbody _ c.body rfl rfl rfl
  all_goals exact (hpart _ rfl).trans (Node.flatMap_writes_of_isDeclarative rfl)

namespace Program

def recordedWrites (p : Program) : List String := (Node.program p).written.flatMap Node.writes

theorem recordedWrites_eq (p : Program) :
    p.recordedWrites = p.declarations.flatMap Declaration.writes := by
  rw [recordedWrites, Node.written_eq, List.flatMap_cons, List.flatMap_assoc, Node.parts,
    List.flatMap_map]
  exact List.flatMap_congr fun d _ => d.flatMap_writes

theorem get?_constants (p : Program) (name : String) :
    get? p.constants name =
      if name ∈ p.declarations.flatMap Declaration.writes then
        some (decide ((p.declarations.flatMap Declaration.writes).count name = 1))
      else none := by
  rw [constants, Dictionary.get?_map_pair]
  simp only [List.mem_eraseDups]

/-- The constants are what is left noted when every write is noted in turn. -/
theorem constants_eq_foldl (p : Program) :
    p.constants = p.recordedWrites.foldl Dictionary.note [] := by
  have hnotes := Dictionary.notes_foldl p.recordedWrites
  have hkeys : keys (p.recordedWrites.foldl Dictionary.note []) = keys p.constants := by
    rw [Dictionary.keys_foldl_note, recordedWrites_eq, constants, keys, List.map_map]
    exact (List.map_id _).symm
  refine (Dictionary.ext_get? hnotes.nodup_keys hkeys fun name => ?_).symm
  rw [get?_constants, ← recordedWrites_eq]
  split
  · exact hnotes.constant name ‹_›
  · rename_i hname
    rwa [Dictionary.get?_eq_none_iff, hnotes.mem_keys_iff]

/-- An accepted program hands on every name that is written, in the order of the first writes, as
constant exactly if it is written once. -/
theorem constants_of_accepted (callerTypes : TypeMap) (config : Config) (p : Program)
    (v : Validated) (h : p.verify callerTypes config = .accepted v) :
    v.constants = p.recordedWrites.foldl Dictionary.note [] ∧
      Notes p.recordedWrites v.constants := by
  obtain ⟨-, -, rfl⟩ := verify_eq_accepted_iff.mp h
  have hfold := p.constants_eq_foldl
  exact ⟨hfold, hfold ▸ Dictionary.notes_foldl p.recordedWrites⟩

def ledger : Program :=
  .ofDeclarations
    [.type (.native "Ask" .void),
      .procedure (.named "reset" (.assigning (.ofKeys ["total"]) (.literal (.int 0)))),
      .outputPort { Port.empty "Back" with operations := [.requestResponse "ask" "Ask" "Ask"] },
      .procedure (.main (.provideUntil .unknown
        (.inputChoice .unknown
          [((Statement.receiving "put").receiveInto (.ofKeys ["entry"]),
            .sequence
              [(Statement.soliciting "ask" "Back").receiveInto (.ofKeys ["reply"]),
                .pointer .unknown (.ofKeys ["last"]) (.ofKeys ["entry"])])])
        (.inputChoice .unknown
          [(.receiving "stop", .step .unknown .postIncrement (.ofKeys ["total"]))])))]

theorem constants_ledger :
    ∃ v, ledger.verify [] .standard = .accepted v ∧
      v.constants =
        [("total", false), ("Back", true), ("entry", false), ("reply", true), ("last", true)] ∧
      Notes ["total", "Back", "entry", "reply", "last", "entry", "total"] v.constants := by
  have haccepted : ledger.verify [] .standard =
      .accepted ⟨(ledger.correlation []).1, ledger.executionMode, ledger.constants⟩ :=
    verify_eq_accepted_iff.mpr ⟨by decide +kernel, by decide +kernel, rfl⟩
  have hwrites : ledger.recordedWrites =
      ["total", "Back", "entry", "reply", "last", "entry", "total"] := by
    rw [recordedWrites_eq]
    decide +kernel
  obtain ⟨hfold, hnotes⟩ := constants_of_accepted [] .standard ledger _ haccepted
  rw [hwrites] at hfold hnotes
  exact ⟨_, haccepted, hfold.trans (by decide), hnotes⟩

end Program

end ServiceCheck
