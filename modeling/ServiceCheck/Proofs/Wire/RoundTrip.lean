import ServiceCheck.Proofs.Wire.Declarations

/-!
Programs and type maps come back equal from the text written for them. Two things have to be said of
a program: that no dictionary in it repeats a key, because dictionaries are lists here, and that
each double in it is the one that its own digits are read as. The text must not open more arrays
and objects than a reader accepts.
-/

set_option autoImplicit false

namespace ServiceCheck

open Decoder

theorem Decoder.ofText_toText {α : Type} {d : Decoder α} {j : Json} {x : α}
    (h : d.Reads (deepest + 1) j x) (hdepth : j.depth ≤ deepest) : ofText d j.toText = .ok x := by
  have hread := h.read deepest (Nat.lt_succ_self deepest) hdepth
  simp only [ofText, Json.Document.read_toText h.whole, hread]
  rfl

def Node.Readable : Node → Prop
  | .program p => ∀ n, Program.decoder.Reads n p.toJson p
  | .declaration d => ∀ n, Declaration.decoder.Reads n d.toJson d
  | .type t => t.Readable
  | .interface i => ∀ n, Interface.decoder.Reads n i.toJson i
  | .inputPort p => ∀ n, InputPort.fields.ReadsFrom n p.toJson p
  | .outputPort p => ∀ n, Port.fields.ReadsFrom n p.toJson p
  | .operation o => ∀ n, Operation.decoder.Reads n o.toJson o
  | .execution e => ∀ n, Execution.fields.ReadsFrom n e.toJson e
  | .correlationSet s => ∀ n, CorrelationSet.fields.ReadsFrom n s.toJson s
  | .procedure p => ∀ n, Procedure.fields.ReadsFrom n p.toJson p
  | .courier c => ∀ n, Courier.fields.ReadsFrom n c.toJson c
  | .embeddedService s => ∀ n, EmbeddedService.fields.ReadsFrom n s.toJson s
  | .statement s => s.Readable
  | .expression x => x.Readable
  | .path p => p.Readable

theorem Declaration.reads {d : Declaration} (h : ∀ y ∈ d.parts, y.Readable) (bound : Nat) :
    Declaration.decoder.Reads bound d.toJson d := by
  cases d with
  | type t =>
    have ht : t.Readable := h (.type t) List.mem_cons_self
    exact (reads_tagged rfl (.map Declaration.type ht.reads)).mono (Nat.le_succ bound)
  | interface i =>
    have hi := h (.interface i) List.mem_cons_self bound
    exact (reads_tagged rfl (.map Declaration.interface hi)).mono (Nat.le_succ bound)
  | inputPort p =>
    have hp := h (.inputPort p) List.mem_cons_self bound
    exact hp.tagged (f := Declaration.inputPort) rfl rfl
  | outputPort p =>
    have hp := h (.outputPort p) List.mem_cons_self bound
    exact hp.tagged (f := Declaration.outputPort) rfl rfl
  | execution e =>
    have he := h (.execution e) List.mem_cons_self bound
    exact he.tagged (f := Declaration.execution) rfl rfl
  | correlationSet s =>
    have hs := h (.correlationSet s) List.mem_cons_self bound
    exact hs.tagged (f := Declaration.correlationSet) rfl rfl
  | procedure p =>
    have hp := h (.procedure p) List.mem_cons_self bound
    exact hp.tagged (f := Declaration.procedure) rfl rfl
  | courier c =>
    have hc := h (.courier c) List.mem_cons_self bound
    exact hc.tagged (f := Declaration.courier) rfl rfl
  | embeddedService s =>
    have hs := h (.embeddedService s) List.mem_cons_self bound
    exact hs.tagged (f := Declaration.embeddedService) rfl rfl

namespace Node

def isReread : Node → Bool
  | .expression (.literal v) => v.isReread
  | x => x.keysDistinct

theorem readable_of_parts {x : Node} (hx : x.isReread) (h : ∀ y ∈ x.parts, y.Readable) :
    x.Readable := by
  cases x with
  | program p =>
    exact fun n => Program.reads fun d hd => h (.declaration d) (List.mem_map_of_mem hd) n
  | declaration d => exact Declaration.reads h
  | type t => exact TypeDefinition.readable_of_parts (of_decide_eq_true hx) fun u hu => h _ hu
  | interface i =>
    exact fun n => Interface.reads (of_decide_eq_true hx) fun o ho =>
      h (.operation o) (List.mem_map_of_mem ho) n
  | inputPort p =>
    refine fun n => ⟨_, rfl, InputPort.reads (Port.reads (fun o ho => ?_) fun i hi => ?_)⟩
    · exact h (.operation o) (List.mem_append_left _ (List.mem_map_of_mem ho)) n
    · exact h (.interface i) (List.mem_append_right _ (List.mem_map_of_mem hi)) n
  | outputPort p =>
    refine fun n => ⟨_, rfl, Port.reads (fun o ho => ?_) fun i hi => ?_⟩
    · exact h (.operation o) (List.mem_append_left _ (List.mem_map_of_mem ho)) n
    · exact h (.interface i) (List.mem_append_right _ (List.mem_map_of_mem hi)) n
  | operation o =>
    exact fun n => Operation.reads (of_decide_eq_true hx) fun t ht =>
      h (.type t) (List.mem_map_of_mem ht)
  | execution e => exact fun n => e.reads
  | correlationSet s =>
    exact fun n => CorrelationSet.reads fun v hv p hp =>
      h (.path p) (List.mem_flatMap.mpr ⟨v, hv, hp⟩)
  | procedure p =>
    have hbody : p.body.Readable := h (.statement p.body) List.mem_cons_self
    exact fun n => Procedure.reads hbody
  | courier c =>
    have hbody : c.body.Readable := h (.statement c.body) List.mem_cons_self
    exact fun n => Courier.reads hbody
  | embeddedService s => exact fun n => s.reads
  | statement s =>
    exact Statement.readable_of_parts (fun p hp => h _ hp) (fun y hy => h _ hy) fun t ht => h _ ht
  | expression y =>
    refine Expression.readable_of_parts (fun v hv => ?_) (fun t ht => h _ ht) (fun p hp => h _ hp)
      fun z hz => h _ hz
    subst hv
    exact hx
  | path p => exact fun y hy => h _ hy

theorem readable {x : Node} (h : ∀ y, x.Contains y → y.isReread) : x.Readable := by
  induction x using Node.induction with
  | step x ih =>
    exact readable_of_parts (h x (.self x)) fun y hy =>
      ih y hy fun z hz => h z (Contains.of_part hy hz)

end Node

theorem Program.isReread_of_contains {p : Program} (hkeys : p.DistinctKeys)
    (hdoubles : ∀ x, (Node.program p).Contains (.expression (.literal (.double x))) →
      Double.ofNumeral? x.numeral = some x) {y : Node} (hy : (Node.program p).Contains y) :
    y.isReread := by
  unfold Node.isReread
  split
  · rename_i v
    cases v with
    | double x => simpa [Literal.isReread] using hdoubles x hy
    | _ => rfl
  · exact hkeys _ hy

theorem TypeDefinition.readable {t : TypeDefinition} (h : t.DistinctKeys) : t.Readable := by
  refine Node.readable (x := .type t) fun y hy => ?_
  obtain ⟨u, hu, rfl⟩ := (t.contains_iff y).mp hy
  exact decide_eq_true (h u hu)

/-- Reading undoes writing on all that can be held, every order, text and variant included. The
hypothesis on doubles only concerns those written in the program: of the digits of some doubles the
reader makes a neighbour. -/
theorem programs_and_typeMaps_reread :
    (∀ p : Program, p.DistinctKeys →
      (∀ x, (Node.program p).Contains (.expression (.literal (.double x))) →
        Double.ofNumeral? x.numeral = some x) →
      p.toJson.depth ≤ deepest → ofText Program.decoder p.toJson.toText = .ok p) ∧
    ∀ types : TypeMap, (Dictionary.keys types).Nodup → types.DistinctKeys →
      types.toJson.depth ≤ deepest → ofText TypeMap.decoder types.toJson.toText = .ok types := by
  constructor
  · intro p hkeys hdoubles hdepth
    have hread : (Node.program p).Readable :=
      Node.readable fun y hy => p.isReread_of_contains hkeys hdoubles hy
    exact ofText_toText (hread _) hdepth
  · intro types hkeys htypes hdepth
    have hread : TypeMap.decoder.Reads (deepest + 1) types.toJson types :=
      reads_dictionary (fun e he => (TypeDefinition.readable (htypes e he)).reads) hkeys
    exact ofText_toText hread hdepth

def orderType : TypeDefinition :=
  .inline ⟨⟨"desk.ol", 3⟩, "order", .one⟩ .void (some
    [("note", .native "note" .string),
      ("amount", .inline ⟨.unknown, "amount", ⟨0, Cardinality.unbounded⟩⟩ .double none true)]) false

def deskTypes : TypeMap :=
  [("order", orderType),
    ("answer", .choice (.plain "answer") (.named "order") (.native "ok" .bool))]

def orderDesk : Program :=
  ⟨⟨"desk.ol", 1⟩,
    [.type orderType,
      .interface ⟨.unknown, "Desk",
        [("take", ⟨.unknown, "take", .named "order",
          some ⟨.named "answer",
            [("TooMuch", .named "order"), ("Closed", .native "Closed" .void)]⟩⟩)]⟩,
      .procedure ⟨.unknown, Procedure.mainId, .requestResponse .unknown "take"
        (some ⟨.unknown, .normal, [⟨.string "order", some (.int (-2))⟩]⟩) none
        (.sequence
          [.assign .unknown (.ofKeys ["order", "note"]) (.string "\"\x01é😀"),
            .assign .unknown (.ofKeys ["order", "amount"])
              (.literal (.double ⟨true, 0x3FF8000000000000, by decide⟩)),
            .nullprocess])⟩]⟩

theorem programs_and_typeMaps_reread_orderDesk :
    (orderDesk.DistinctKeys ∧
      (∀ x, (Node.program orderDesk).Contains (.expression (.literal (.double x))) →
        Double.ofNumeral? x.numeral = some x) ∧
      orderDesk.toJson.depth ≤ deepest ∧
      ofText Program.decoder orderDesk.toJson.toText = .ok orderDesk) ∧
    (Dictionary.keys deskTypes).Nodup ∧ deskTypes.DistinctKeys ∧
      (TypeMap.toJson deskTypes).depth ≤ deepest ∧
      ofText TypeMap.decoder (TypeMap.toJson deskTypes).toText = .ok deskTypes := by
  have hreread : (Node.program orderDesk).allAbove Node.isReread 12 := by decide +kernel
  have hkeys : orderDesk.DistinctKeys := .of_allAbove 12 (by decide +kernel)
  have hdoubles : ∀ x, (Node.program orderDesk).Contains (.expression (.literal (.double x))) →
      Double.ofNumeral? x.numeral = some x := fun x hx => by
    simpa [Node.isReread, Literal.isReread] using Node.passes_of_allAbove hreread hx
  have hdepth : orderDesk.toJson.depth ≤ deepest := by decide +kernel
  have hnames : (Dictionary.keys deskTypes).Nodup := by decide
  have htypes : deskTypes.DistinctKeys := by decide +kernel
  have htypesDepth : (TypeMap.toJson deskTypes).depth ≤ deepest := by decide +kernel
  exact ⟨⟨hkeys, hdoubles, hdepth,
      programs_and_typeMaps_reread.1 orderDesk hkeys hdoubles hdepth⟩,
    hnames, htypes, htypesDepth,
    programs_and_typeMaps_reread.2 deskTypes hnames htypes htypesDepth⟩

end ServiceCheck
