import Mathlib.Data.Set.Defs
import ServiceCheck.Proofs.FaultFlow.Meaning
import ServiceCheck.Proofs.FaultFlow.Reading
import ServiceCheck.Proofs.FaultFlow.Resolution

set_option autoImplicit false

namespace ServiceCheck

namespace Program

/-- What is read for an operation: the guard and the body of the first branch that receives it, or
the body of `main` where that is a request-response of the operation. -/
def servedBy (operation : String) : Statement → Option (List Statement)
  | .inputChoice _ branches =>
    (branches.find? (·.1.inputOperation? = some operation)).map fun branch => [branch.1, branch.2]
  | .requestResponse position id input output process =>
    if id = operation then some [.requestResponse position id input output process] else none
  | _ => none

def servedBranch? (p : Program) (operation : String) : Option (List Statement) :=
  (p.procedures.find? (·.isMain)).bind fun main => servedBy operation main.body

/-- A fault that escapes statements read in one root. Handlers are beside the scope that they
guard, and a root is beside itself. -/
def Escapes (p : Program) (parts : List Statement) (name : String) : Prop :=
  ((∃ s ∈ parts, p.Throws [] s name) ∨ ∃ s ∈ parts, p.HandsUp [] s name) ∧
    ¬∃ s ∈ parts, p.Catches [] s name

def mainEffects (p : Program) (parts : List Statement) : Effects :=
  .all (parts.map
    (FaultFlow.effectsUpTo p.firstOutputPorts p.callable p.callable.length []))

theorem mem_names_mainEffects (p : Program) (parts : List Statement) (name : String) :
    name ∈ ThrownFault.names (p.mainEffects parts).passedByRoot ↔ p.Escapes parts name := by
  have hbudget : (p.enterable []).length ≤ p.callable.length :=
    Dictionary.length_keysOutside_le p.callable []
  have hmeans := @means_effectsUpTo p [] _ hbudget
  rw [Effects.mem_names_passedByRoot, mainEffects, Effects.throws_all, Effects.handsUp_all,
    Effects.catches_all, Escapes]
  simp only [(hmeans _).throws, (hmeans _).handsUp, (hmeans _).catches]

/-- Trees and their forest after some branches are read: each operation's first tree lets through
what the statements serving it let through in a root. -/
structure Served (p : Program) (served : String → Option (List Statement))
    (trees : List ServedTree) (f : ScopeForest) : Prop where
  sound : f.Sound
  nodup : (trees.map (·.scope)).Nodup
  roots : ∀ tree ∈ trees, tree.scope < f.size ∧ f.parent? tree.scope = none
  survivors : ∀ operation,
    (trees.find? (·.operation = some operation)).map (fun tree => f.survivors tree.scope) =
      (served operation).map fun parts => (p.mainEffects parts).passedByRoot

def readRoot (p : Program) (parts : List Statement) (w : FaultFlow) : FaultFlow :=
  parts.foldl (fun v s => p.readMain w.forest.size s v) (w.update .addRoot)

theorem grows_readRoot (p : Program) (parts : List Statement) {w : FaultFlow}
    (hsound : w.forest.Sound) :
    w.forest.addRoot.Grows w.forest.size (p.mainEffects parts) (p.readRoot parts w).forest := by
  exact FaultFlow.adds_foldl parts _ _
    (fun s _ => FaultFlow.adds_readUpTo p.firstOutputPorts p.callable p.callable.length [] s)
    w.forest.size (w.update .addRoot) hsound.addRoot w.forest.lt_size_addRoot

theorem parent?_newRoot (f : ScopeForest) : f.addRoot.parent? f.size = none := by
  rw [ScopeForest.parent?_addRoot, ScopeForest.parent?_of_size_le (Nat.le_refl _)]

theorem holder_newRoot (f : ScopeForest) (side : Side) :
    f.addRoot.holder f.size side = f.size := by
  cases side with
  | inside => rfl
  | beside => rw [ScopeForest.holder, parent?_newRoot, Option.getD_none]

theorem survivors_newRoot (p : Program) (parts : List Statement) {w : FaultFlow}
    (hsound : w.forest.Sound) :
    (p.readRoot parts w).forest.survivors w.forest.size =
      (p.mainEffects parts).passedByRoot := by
  have hopened : (p.mainEffects parts).openedUnder w.forest.addRoot w.forest.size
      w.forest.size = (p.mainEffects parts).opened.map (·.2) := by
    rw [Effects.openedUnder, List.filter_eq_self.mpr fun scope _ => by simp [holder_newRoot]]
  have hle := Nat.le_refl w.forest.size
  rw [(p.grows_readRoot parts hsound).survivors_current, hopened]
  · rfl
  · exact w.forest.lt_size_addRoot
  · rw [ScopeForest.thrown_addRoot, ScopeForest.thrown_of_size_le hle]
  · rw [ScopeForest.caught_addRoot, ScopeForest.caught_of_size_le hle]
  · rw [ScopeForest.children_addRoot, ScopeForest.children_of_size_le hle]

theorem survivors_oldScope (p : Program) (parts : List Statement) {w : FaultFlow}
    (hsound : w.forest.Sound) {a : Nat} (ha : a < w.forest.size) :
    (p.readRoot parts w).forest.survivors a = w.forest.survivors a := by
  have hroot : w.forest.addRoot.survivors a = w.forest.survivors a :=
    ScopeForest.survivors_congr hsound hsound.addRoot (fun _ => True) (fun _ _ _ _ => trivial)
      (fun b _ => ScopeForest.thrown_addRoot _ b) (fun b _ => ScopeForest.caught_addRoot _ b)
      (fun b _ => ScopeForest.children_addRoot _ b) trivial
  rw [← hroot]
  refine (p.grows_readRoot parts hsound).survivors_eq hsound.addRoot (· < w.forest.size)
    (fun b hb => Nat.lt_trans hb w.forest.lt_size_addRoot) (fun b hb child hchild => ?_)
    (fun b hb side => ?_) ha
  · rw [ScopeForest.children_addRoot] at hchild
    exact hsound.lt_size_of_mem_children hchild
  · rw [holder_newRoot]
    exact Nat.ne_of_gt hb

theorem Served.add {p : Program} {served : String → Option (List Statement)}
    {trees : List ServedTree} {w : FaultFlow} (h : p.Served served trees w.forest)
    (operation : Option String) (parts : List Statement) :
    p.Served (fun id => (served id).or (if operation = some id then some parts else none))
      (trees ++ [⟨operation, w.forest.size⟩]) (p.readRoot parts w).forest := by
  have hgrows := p.grows_readRoot parts h.sound
  have hsize := hgrows.size_le
  have hroot := w.forest.lt_size_addRoot
  refine ⟨hgrows.sound, ?_, fun tree htree => ?_, fun id => ?_⟩
  · rw [List.map_append, List.nodup_append]
    refine ⟨h.nodup, by simp, fun a ha b hb heq => ?_⟩
    obtain ⟨tree, htree, hscope⟩ := List.mem_map.mp ha
    have hold := (h.roots tree htree).1
    have hnew : b = w.forest.size := by simpa using hb
    omega
  · rcases List.mem_append.mp htree with hold | hnew
    · obtain ⟨hlt, hparent⟩ := h.roots tree hold
      refine ⟨by omega, ?_⟩
      rw [hgrows.parent?_eq _ (by omega),
        ScopeForest.parent?_addRoot, hparent]
    · obtain rfl := List.mem_singleton.mp hnew
      refine ⟨Nat.lt_of_lt_of_le hroot hsize, ?_⟩
      rw [hgrows.parent?_eq _ w.forest.lt_size_addRoot]
      exact parent?_newRoot w.forest
  · have hkept : (trees.find? (·.operation = some id)).map
        (fun tree => (p.readRoot parts w).forest.survivors tree.scope) =
        (trees.find? (·.operation = some id)).map fun tree => w.forest.survivors tree.scope := by
      refine Option.map_congr fun tree htree => ?_
      exact p.survivors_oldScope parts h.sound (h.roots tree (List.mem_of_find?_eq_some htree)).1
    rw [List.find?_append, Option.map_or, hkept, h.survivors, Option.map_or]
    congr 1
    by_cases hid : operation = some id
    · simp [hid, p.survivors_newRoot parts h.sound]
    · simp [hid]

theorem Served.of_eq {p : Program} {served served' : String → Option (List Statement)}
    {trees : List ServedTree} {f : ScopeForest} (h : p.Served served trees f)
    (heq : ∀ id, served' id = served id) : p.Served served' trees f :=
  ⟨h.sound, h.nodup, h.roots, fun id => by rw [h.survivors, heq]⟩

theorem served_readBranches (p : Program) (rest : List (Statement × Statement))
    {served : String → Option (List Statement)} {trees : List ServedTree} {w : FaultFlow}
    (h : p.Served served trees w.forest) :
    p.Served
      (fun id => (served id).or
        ((rest.find? (·.1.inputOperation? = some id)).map fun branch => [branch.1, branch.2]))
      (p.readBranches trees rest w).1 (p.readBranches trees rest w).2.forest := by
  induction rest generalizing served trees w with
  | nil => exact h.of_eq fun id => by simp
  | cons branch rest ih =>
    obtain ⟨guard, body⟩ := branch
    rw [readBranches]
    split
    case isTrue hskip =>
      refine (@ih served trees (w.log _) h).of_eq fun id => ?_
      by_cases hid : guard.inputOperation? = some id
      · -- an earlier tree serves this operation, so the branch does not count
        have htree : (trees.find? (·.operation = some id)).isSome := by
          rw [Bool.and_eq_true, hid] at hskip
          exact List.find?_isSome.mpr (List.any_eq_true.mp hskip.2)
        obtain ⟨parts, hparts⟩ : ∃ parts, served id = some parts := by
          have hsome := congrArg Option.isSome (h.survivors id)
          rw [Option.isSome_map, Option.isSome_map, htree] at hsome
          exact Option.isSome_iff_exists.mp hsome.symm
        simp [hparts]
      · simp [hid]
    case isFalse =>
      refine (ih (h.add guard.inputOperation? [guard, body])).of_eq fun id => ?_
      rw [Option.or_assoc]
      congr 1
      by_cases hid : guard.inputOperation? = some id
      · simp [hid]
      · simp [hid]

theorem served_nothing (p : Program) : p.Served (fun _ => none) [] .empty :=
  ⟨ScopeForest.sound_empty, by simp, by simp, by simp⟩

theorem served_readBody (p : Program) (body : Statement) :
    p.Served (servedBy · body) (p.readBody body).1 (p.readBody body).2.forest := by
  have hstart : p.Served (fun _ => none) [] FaultFlow.start.forest := p.served_nothing
  have hadd := fun operation => hstart.add operation [body]
  cases body
  case inputChoice position branches =>
    exact (p.served_readBranches branches hstart).of_eq fun id => rfl
  case requestResponse position id input output process =>
    refine (hadd (some id)).of_eq fun operation => ?_
    simp [servedBy]
  all_goals exact (hadd none).of_eq fun operation => by simp [servedBy]

theorem get?_escaping (trees : List ServedTree) (f : ScopeForest) (operation : String) :
    Dictionary.get? ((escaping trees f).map fun (id, thrown) => (id, thrown.map (·.name)))
        operation =
      (trees.find? (·.operation = some operation)).map fun tree =>
        ThrownFault.names (f.thrown tree.scope) := by
  induction trees with
  | nil => rfl
  | cons tree rest ih =>
    cases hop : tree.operation with
    | none => simpa [escaping, hop] using ih
    | some id =>
      by_cases hid : id = operation
      · simp [escaping, hop, hid, Dictionary.get?_cons, ThrownFault.names]
      · simpa [escaping, hop, hid, Dictionary.get?_cons] using ih

theorem Served.thrown_resolved {p : Program} {served : String → Option (List Statement)}
    {trees : List ServedTree} {f : ScopeForest} (h : p.Served served trees f)
    (operation : String) :
    (trees.find? (·.operation = some operation)).map (fun tree =>
        (trees.foldl (fun g tree => g.resolve tree.scope) f).thrown tree.scope) =
      (served operation).map fun parts => (p.mainEffects parts).passedByRoot := by
  have hroots : ∀ root ∈ trees.map (·.scope), f.parent? root = none := by
    intro root hroot
    obtain ⟨tree, htree, hscope⟩ := List.mem_map.mp hroot
    rw [← hscope]
    exact (h.roots tree htree).2
  rw [← h.survivors]
  refine Option.map_congr fun tree htree => ?_
  have hthrown := ScopeForest.thrown_resolve_roots h.sound h.nodup hroots
    (List.mem_map_of_mem (List.mem_of_find?_eq_some htree))
  rwa [List.foldl_map] at hthrown

theorem get?_reported (p : Program) (operation : String) :
    Dictionary.get? p.faultReport.thrown operation =
      (p.servedBranch? operation).map fun parts =>
        ThrownFault.names (p.mainEffects parts).passedByRoot := by
  unfold faultReport servedBranch?
  cases hmain : p.procedures.find? (·.isMain) with
  | none => rfl
  | some main =>
    have hthrown := (p.served_readBody main.body).thrown_resolved operation
    have hnames := congrArg (Option.map ThrownFault.names) hthrown
    simp only [Option.map_map] at hnames
    simp only [get?_escaping, Option.bind_some]
    exact hnames

/-- The faults reported for an operation, if it is served at all, are those that escape the
statements serving it. -/
theorem reported_eq_escaping (p : Program) (operation : String) :
    (Dictionary.get? p.faultReport.thrown operation).map (fun names => {name | name ∈ names}) =
      (p.servedBranch? operation).map fun parts => {name | p.Escapes parts name} := by
  rw [get?_reported, Option.map_map]
  refine Option.map_congr fun parts _ => ?_
  exact Set.ext fun name => p.mem_names_mainEffects parts name

end Program

end ServiceCheck
