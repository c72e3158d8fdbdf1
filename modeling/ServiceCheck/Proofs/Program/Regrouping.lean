import ServiceCheck.Proofs.Program.AlikeDictionaries
import ServiceCheck.Proofs.Program.Parts
import ServiceCheck.Verification.Verdict

/-!
Statements that differ only in how their sequences are grouped. A sequence inside a sequence can be
replaced by its children, wherever the two stand, unless it is empty.
-/

set_option autoImplicit false

namespace ServiceCheck

/-- A statement with one place left open for a statement that stands directly in it. -/
inductive Frame where
  | sequence (before after : List Statement)
  | parallel (before after : List Statement)
  | inputGuard (position : Position) (before : List (Statement × Statement)) (body : Statement)
      (after : List (Statement × Statement))
  | inputBody (position : Position) (before : List (Statement × Statement)) (guard : Statement)
      (after : List (Statement × Statement))
  | process (position : Position) (operation : String) (input : Option VariablePath)
      (output : Option Expression)
  | conditionalBody (position : Position) (before : List (Expression × Statement))
      (condition : Expression) (after : List (Expression × Statement))
      (otherwise : Option Statement)
  | elseBody (position : Position) (branches : List (Expression × Statement))
  | whileBody (position : Position) (condition : Expression)
  | forFirst (position : Position) (condition : Expression) (post body : Statement)
  | forPost (position : Position) (first : Statement) (condition : Expression) (body : Statement)
  | forBody (position : Position) (first : Statement) (condition : Expression) (post : Statement)
  | forEachBody (position : Position) (kind : ForEachKind) (key target : VariablePath)
  | scopeBody (position : Position) (id : String)
  | handler (position : Position) (before : List (String × Statement)) (fault : String)
      (after : List (String × Statement))
  | synchronizedBody (position : Position) (id : String)
  | spawnBody (position : Position) (index : VariablePath) (bound : Expression)
      (into : Option VariablePath)
  | provideSide (position : Position) (finish : Statement)
  | finishSide (position : Position) (provide : Statement)
  | courierBody (position : Position) (before : List CourierBranch) (target : CourierTarget)
      (kind : OperationKind) (input output : Option VariablePath) (after : List CourierBranch)

namespace Frame

def fill : Frame → Statement → Statement
  | sequence before after, s => .sequence (before ++ s :: after)
  | parallel before after, s => .parallel (before ++ s :: after)
  | inputGuard position before body after, s => .inputChoice position (before ++ (s, body) :: after)
  | inputBody position before guard after, s =>
    .inputChoice position (before ++ (guard, s) :: after)
  | process position operation input output, s =>
    .requestResponse position operation input output s
  | conditionalBody position before condition after otherwise, s =>
    .conditional position (before ++ (condition, s) :: after) otherwise
  | elseBody position branches, s => .conditional position branches (some s)
  | whileBody position condition, s => .whileLoop position condition s
  | forFirst position condition post body, s => .forLoop position s condition post body
  | forPost position first condition body, s => .forLoop position first condition s body
  | forBody position first condition post, s => .forLoop position first condition post s
  | forEachBody position kind key target, s => .forEach position kind key target s
  | scopeBody position id, s => .scope position id s
  | handler position before fault after, s => .install position (before ++ (fault, s) :: after)
  | synchronizedBody position id, s => .synchronized position id s
  | spawnBody position index bound into, s => .spawn position index bound into s
  | provideSide position finish, s => .provideUntil position s finish
  | finishSide position provide, s => .provideUntil position provide s
  | courierBody position before target kind input output after, s =>
    .courierChoice position (before ++ ⟨target, kind, input, output, s⟩ :: after)

/-- There is a frame for every place where a statement can stand. -/
theorem exists_fill_eq {s t : Statement} (h : .statement t ∈ s.parts) :
    ∃ frame : Frame, frame.fill t = s := by
  cases s <;> simp [Statement.parts, CourierBranch.parts] at h
  case sequence children =>
    obtain ⟨before, after, rfl⟩ := List.append_of_mem h
    exact ⟨.sequence before after, rfl⟩
  case parallel children =>
    obtain ⟨before, after, rfl⟩ := List.append_of_mem h
    exact ⟨.parallel before after, rfl⟩
  case inputChoice position branches =>
    obtain ⟨guard, body, hmem, heq⟩ := h
    obtain ⟨before, after, rfl⟩ := List.append_of_mem hmem
    rcases heq with rfl | rfl
    · exact ⟨.inputGuard position before body after, rfl⟩
    · exact ⟨.inputBody position before guard after, rfl⟩
  case conditional position branches otherwise =>
    rcases h with ⟨condition, hmem⟩ | rfl
    · obtain ⟨before, after, rfl⟩ := List.append_of_mem hmem
      exact ⟨.conditionalBody position before condition after otherwise, rfl⟩
    · exact ⟨.elseBody position branches, rfl⟩
  case install position handlers =>
    obtain ⟨fault, hmem⟩ := h
    obtain ⟨before, after, rfl⟩ := List.append_of_mem hmem
    exact ⟨.handler position before fault after, rfl⟩
  case courierChoice position branches =>
    obtain ⟨⟨target, kind, input, output, body⟩, hmem, rfl⟩ := h
    obtain ⟨before, after, rfl⟩ := List.append_of_mem hmem
    exact ⟨.courierBody position before target kind input output after, rfl⟩
  case forLoop position first condition post body =>
    rcases h with rfl | rfl | rfl
    · exact ⟨.forFirst position condition post body, rfl⟩
    · exact ⟨.forPost position first condition body, rfl⟩
    · exact ⟨.forBody position first condition post, rfl⟩
  case provideUntil position provide finish =>
    rcases h with rfl | rfl
    · exact ⟨.provideSide position finish, rfl⟩
    · exact ⟨.finishSide position provide, rfl⟩
  all_goals subst h
  case requestResponse position operation input output =>
    exact ⟨.process position operation input output, rfl⟩
  case whileLoop position condition => exact ⟨.whileBody position condition, rfl⟩
  case forEach position kind key target => exact ⟨.forEachBody position kind key target, rfl⟩
  case scope position id => exact ⟨.scopeBody position id, rfl⟩
  case synchronized position id => exact ⟨.synchronizedBody position id, rfl⟩
  case spawn position index bound into => exact ⟨.spawnBody position index bound into, rfl⟩

end Frame

namespace Statement

inductive Regrouped : Statement → Statement → Prop where
  | refl (s : Statement) : Regrouped s s
  | symm {s t : Statement} : Regrouped s t → Regrouped t s
  | trans {s t u : Statement} : Regrouped s t → Regrouped t u → Regrouped s u
  | splice (before : List Statement) (head : Statement) (rest after : List Statement) :
    Regrouped (.sequence (before ++ .sequence (head :: rest) :: after))
      (.sequence (before ++ (head :: rest) ++ after))
  | within (frame : Frame) {s t : Statement} :
    Regrouped s t → Regrouped (frame.fill s) (frame.fill t)

namespace Regrouped

variable {s t : Statement}

/-- A function reads no grouping if it reads none in a splice and none through a frame. -/
theorem eq_of {α : Type} {f : Statement → α}
    (splice : ∀ before head rest after,
      f (.sequence (before ++ .sequence (head :: rest) :: after)) =
        f (.sequence (before ++ (head :: rest) ++ after)))
    (within : ∀ (frame : Frame) s t, Regrouped s t → f s = f t →
      f (frame.fill s) = f (frame.fill t))
    (h : Regrouped s t) : f s = f t := by
  induction h with
  | refl => rfl
  | symm _ ih => exact ih.symm
  | trans _ _ ih ih' => exact ih.trans ih'
  | splice before head rest after => exact splice before head rest after
  | within frame hst ih => exact within frame _ _ hst ih

theorem inputOperation?_eq (h : Regrouped s t) : s.inputOperation? = t.inputOperation? :=
  h.eq_of (fun _ _ _ _ => rfl) fun frame _ _ _ _ => by cases frame <;> rfl

theorem position?_eq (h : Regrouped s t) : s.position? = t.position? :=
  h.eq_of (fun _ _ _ _ => rfl) fun frame _ _ _ _ => by cases frame <;> rfl

/-- An empty sequence must stay for this: what comes after it is not what a body starts with. -/
theorem isInput_first_eq (h : Regrouped s t) : s.first.isInput = t.first.isInput := by
  refine h.eq_of (f := (·.first.isInput)) ?_ ?_
  · intro before head rest after
    cases before <;> simp [first]
  · intro frame s t _ ih
    cases frame with
    | sequence before after => cases before <;> simp [Frame.fill, first, ih]
    | _ => rfl

example : (Statement.sequence [.sequence [], .oneWay .unknown "ping" none]).first.isInput = false :=
  rfl

end Regrouped

end Statement

structure Procedure.Regrouped (p q : Procedure) : Prop where
  position : q.position = p.position
  id : q.id = p.id
  body : p.body.Regrouped q.body

inductive Declaration.Regrouped : Declaration → Declaration → Prop where
  | refl (d : Declaration) : Regrouped d d
  | procedure {p q : Procedure} (h : p.Regrouped q) : Regrouped (.procedure p) (.procedure q)
  | courier (position : Position) (inputPort : String) {s t : Statement} (h : s.Regrouped t) :
    Regrouped (.courier ⟨position, inputPort, s⟩) (.courier ⟨position, inputPort, t⟩)

def Program.Regrouped (p q : Program) : Prop :=
  List.Forall₂ Declaration.Regrouped p.declarations q.declarations

namespace Program.Regrouped

theorem refl (p : Program) : p.Regrouped p := List.forall₂_same.mpr fun d _ => .refl d

/-- Any one declaration can be regrouped by itself. -/
theorem single (position : Position) (before after : List Declaration) {d e : Declaration}
    (h : d.Regrouped e) :
    Program.Regrouped ⟨position, before ++ d :: after⟩ ⟨position, before ++ e :: after⟩ :=
  List.rel_append (refl ⟨position, before⟩) (.cons h (refl ⟨position, after⟩))

variable {p q : Program} {α : Type}

theorem map_eq (h : p.Regrouped q) {f : Declaration → α}
    (hf : ∀ d e, d.Regrouped e → f d = f e) :
    p.declarations.map f = q.declarations.map f := by
  rw [← List.forall₂_eq_eq_eq, List.forall₂_map_left_iff, List.forall₂_map_right_iff]
  exact List.Forall₂.imp hf h

theorem filterMap_eq (h : p.Regrouped q) {f : Declaration → Option α}
    (hf : ∀ d e, d.Regrouped e → f d = f e) :
    p.declarations.filterMap f = q.declarations.filterMap f := by
  have hmap := congrArg (List.filterMap id) (h.map_eq hf)
  rwa [List.filterMap_map, List.filterMap_map] at hmap

theorem types_eq (h : p.Regrouped q) : p.types = q.types :=
  h.filterMap_eq fun _ _ hde => by cases hde <;> rfl

theorem inputPorts_eq (h : p.Regrouped q) : p.inputPorts = q.inputPorts :=
  h.filterMap_eq fun _ _ hde => by cases hde <;> rfl

theorem outputPorts_eq (h : p.Regrouped q) : p.outputPorts = q.outputPorts :=
  h.filterMap_eq fun _ _ hde => by cases hde <;> rfl

theorem correlationSets_eq (h : p.Regrouped q) : p.correlationSets = q.correlationSets :=
  h.filterMap_eq fun _ _ hde => by cases hde <;> rfl

theorem executionMode_eq (h : p.Regrouped q) : p.executionMode = q.executionMode := by
  rw [executionMode, h.filterMap_eq fun _ _ hde => by cases hde <;> rfl]
  rfl

theorem procedures_regrouped (h : p.Regrouped q) :
    List.Forall₂ Procedure.Regrouped p.procedures q.procedures := by
  refine List.rel_filterMap (fun d e hde => ?_) h
  cases hde with
  | refl d =>
    cases d with
    | procedure p => exact .some ⟨rfl, rfl, .refl p.body⟩
    | _ => exact .none
  | procedure h => exact .some h
  | courier => exact .none

end Program.Regrouped

end ServiceCheck
