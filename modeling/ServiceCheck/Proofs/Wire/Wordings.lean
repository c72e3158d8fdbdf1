import ServiceCheck.Proofs.Json.Spelled
import ServiceCheck.Proofs.Wire.Types
import ServiceCheck.Proofs.Wire.Variation

set_option autoImplicit false

namespace ServiceCheck

open Decoder

section Fields

variable {name : String}

theorem Position.keeps : Position.decoder.Keeps Position.layout :=
  keeps_record (.seq (.map _ (keeps_required (keeps_plain _))) (keeps_required (keeps_plain _)))
    rfl rfl

theorem keeps_position : Decoder.position.Keeps [.position] := keeps_defaulted Position.keeps

theorem keeps_located : Statement.located.Keeps [.located] := keeps_required Position.keeps

theorem keeps_text : (Statement.text name).Keeps [.plain name] := keeps_required (keeps_plain _)

end Fields

namespace TypeDefinition

theorem keeps_cardinality :
    (defaulted "cardinality" .one Cardinality.decoder).Keeps [.cardinality] :=
  keeps_defaulted (keeps_record
    (.seq (.map _ (keeps_required (keeps_plain _))) (keeps_required (keeps_plain _))) rfl rfl)

theorem keeps_decoderUpTo (depth : Nat) : Decoder.Keeps (decoderUpTo depth) (.part .type) := by
  induction depth with
  | zero =>
    intro room j j' t _ ht
    cases ht
  | succ depth ih =>
    have hinline : Decoder.Fields.Keeps (inlineFields (decoderUpTo depth)) _ :=
      .seq (.seq (.seq (.seq (.seq (.map _ keeps_position) keeps_text)
        (keeps_required (keeps_named _))) keeps_cardinality)
        (keeps_optionalField (.dictionary decoder) (keeps_dictionary ih)))
        (keeps_defaulted (keeps_plain _))
    have hlink : Decoder.Fields.Keeps linkFields _ :=
      .seq (.seq (.seq (.map _ keeps_position) keeps_text) keeps_cardinality) keeps_text
    have hchoice : Decoder.Fields.Keeps (choiceFields (decoderUpTo depth)) _ :=
      .seq (.seq (.seq (.seq (.map _ keeps_position) keeps_text) keeps_cardinality)
        (keeps_required ih)) (keeps_required ih)
    exact keeps_part (keeps_choice (.cons (.tagged hinline rfl rfl)
      (.cons (.tagged hlink rfl rfl) (.cons (.tagged hchoice rfl rfl) .nil))))

theorem keeps : Decoder.Keeps decoder (.part .type) :=
  fun room => keeps_decoderUpTo (room + 1) room

end TypeDefinition

theorem Literal.keeps : Literal.decoder.Keeps Literal.layout :=
  keeps_choice (.cons (.value _ (keeps_plain _)) (.cons (.value _ (keeps_plain _))
    (.cons (.value _ (keeps_plain _)) (.cons (.value _ (keeps_plain _))
      (.cons (.value _ (keeps_plain _)) .nil)))))

namespace Expression

section Recursion

variable {self : Decoder Expression} (hself : self.Keeps (.part .expression))

include hself

theorem keeps_step : (stepDecoder self).Keeps PathStep.layout :=
  keeps_record (.seq (.map _ (keeps_required hself)) (keeps_optionalField decoder hself)) rfl rfl

theorem keeps_path : (pathDecoder self).Keeps VariablePath.layout :=
  keeps_record (.seq (.seq (.map _ keeps_position) (keeps_defaulted (keeps_named _)))
    (keeps_required (keeps_list (keeps_step hself)))) rfl rfl

theorem keeps_edit : (editDecoder self).Keeps TreeEdit.layout := by
  have hpath := keeps_path hself
  have hassign : Decoder.Fields.Keeps (TreeEdit.assign <$> required "path" (pathDecoder self) <*>
      required "expression" self) _ :=
    .seq (.map _ (keeps_required hpath)) (keeps_required hself)
  have hdeepCopy : Decoder.Fields.Keeps (TreeEdit.deepCopy <$> required "path" (pathDecoder self)
      <*> required "expression" self) _ :=
    .seq (.map _ (keeps_required hpath)) (keeps_required hself)
  exact keeps_choice
    (.cons (.tagged hassign rfl rfl)
    (.cons (.tagged hdeepCopy rfl rfl)
    (.cons (.tagged (.seq (.map _ (keeps_required hpath)) (keeps_required hpath)) rfl rfl)
    .nil)))

theorem keeps_operands :
    (Decoder.list (operandDecoder self)).Keeps
      (.list (.pair (.named Arithmetic.names) (.part .expression))) :=
  keeps_list (keeps_pair (keeps_named _) hself)

theorem keeps_variants : (choice (variants self)).Keeps Expression.layout := by
  have hpath := keeps_path hself
  have hoperands := keeps_operands hself
  have hlist := keeps_list hself
  exact keeps_choice
    (.cons (.value _ (Literal.keeps.map _))
    (.cons (.value _ (hpath.map _))
    (.cons (.value _ (hoperands.map _))
    (.cons (.value _ (hoperands.map _))
    (.cons (.value _ (hlist.map _))
    (.cons (.value _ (hlist.map _))
    (.cons (.value _ (hself.map _))
    (.cons (.tagged (.seq (.seq (.map _ (keeps_required (keeps_named _)))
      (keeps_required hself)) (keeps_required hself)) rfl rfl)
    (.cons (.value _ (hpath.map _))
    (.cons (.value _ (hpath.map _))
    (.cons (.tagged (.seq (.map _ (keeps_required hself))
      (keeps_required TypeDefinition.keeps)) rfl rfl)
    (.cons (.tagged (.seq (.map _ (keeps_required hself))
      (keeps_required (keeps_named _))) rfl rfl)
    (.cons (.tagged (.seq (.map _ (keeps_required hself))
      (keeps_required (keeps_list (keeps_edit hself)))) rfl rfl)
    (.cons (.unit _ _)
    (.cons (.unit _ _)
    (.cons (.value _ (hpath.map _)) .nil))))))))))))))))

end Recursion

theorem keeps_decoderUpTo (depth : Nat) :
    Decoder.Keeps (decoderUpTo depth) (.part .expression) := by
  induction depth with
  | zero =>
    intro room j j' x _ hx
    cases hx
  | succ depth ih => exact keeps_part (keeps_variants ih)

theorem keeps : Decoder.Keeps decoder (.part .expression) :=
  fun room => keeps_decoderUpTo (room + 1) room

end Expression

theorem VariablePath.keeps : VariablePath.decoder.Keeps VariablePath.layout :=
  Expression.keeps_path Expression.keeps

namespace Statement

section Fields

variable {name : String}

theorem keeps_pathField : (pathField name).Keeps [.path name] := keeps_required VariablePath.keeps

theorem keeps_expressionField : (expressionField name).Keeps [.expression name] :=
  keeps_required Expression.keeps

theorem keeps_defaultedPath : (defaultedPath name).Keeps [.optionalPath name] :=
  keeps_optionalField _ VariablePath.keeps

theorem keeps_defaultedExpression : (defaultedExpression name).Keeps [.optionalExpression name] :=
  keeps_optionalField _ Expression.keeps

theorem keeps_nullablePath :
    (nullable name VariablePath.decoder).Keeps [.optionalPath name] :=
  keeps_optionalField _ VariablePath.keeps

theorem keeps_nullableText : (nullable name .string).Keeps [.optional name .string .plain] :=
  keeps_optionalField _ (keeps_plain _)

end Fields

abbrev TaggedKeeps : String × List (Slot Layout) → String × Decoder.Fields Statement → Prop :=
  fun slots fields => Content.Keeps (slots.1, some (.record slots.2))
    (fields.1, .value (record fields.2))

theorem keeps_leafFields : List.Forall₂ TaggedKeeps leafSlots leafFields :=
  .cons (.tagged (.seq (.seq (.map _ keeps_position) keeps_text) keeps_defaultedPath) rfl rfl) <|
  .cons (.tagged (.seq (.seq (.seq (.map _ keeps_position) keeps_text) keeps_text)
    keeps_defaultedExpression) rfl rfl) <|
  .cons (.tagged (.seq (.seq (.seq (.seq (.map _ keeps_position) keeps_text) keeps_text)
    keeps_defaultedExpression) keeps_defaultedPath) rfl rfl) <|
  .cons (.tagged (.seq (.seq (.map _ keeps_located) keeps_pathField) keeps_expressionField)
    rfl rfl) <|
  .cons (.tagged (.seq (.seq (.seq (.map _ keeps_located) (keeps_required (keeps_named _)))
    keeps_pathField) keeps_expressionField) rfl rfl) <|
  .cons (.tagged (.seq (.seq (.map _ keeps_located) keeps_pathField) keeps_pathField) rfl rfl) <|
  .cons (.tagged (.seq (.seq (.map _ keeps_located) keeps_pathField) keeps_expressionField)
    rfl rfl) <|
  .cons (.tagged (.seq (.seq (.map _ keeps_located) (keeps_required (keeps_named _)))
    keeps_pathField) rfl rfl) <|
  .cons (.tagged (.seq (.map _ keeps_located) keeps_pathField) rfl rfl) <|
  .cons (.tagged (.seq (.map _ keeps_position) keeps_text) rfl rfl) <|
  .cons (.tagged (.seq (.seq (.map _ keeps_located) keeps_text)
    (keeps_optionalField _ Expression.keeps)) rfl rfl) <|
  .cons (.tagged (.seq (.map _ keeps_located) keeps_text) rfl rfl) <|
  .cons (.tagged (.seq (.map _ keeps_located) keeps_expressionField) rfl rfl) <|
  .cons (.tagged (.seq (.map _ keeps_located) keeps_text) rfl rfl) <|
  .cons (.tagged (.seq (.map _ keeps_located) keeps_text) rfl rfl) <|
  .cons (.tagged (.seq (.seq (.map _ keeps_located) keeps_nullableText) keeps_nullablePath)
    rfl rfl) <|
  .cons (.tagged (.seq (.seq (.seq (.map _ keeps_located) keeps_nullableText) keeps_nullablePath)
    keeps_nullablePath) rfl rfl) .nil

theorem keeps_courierTarget : CourierTarget.decoder.Keeps courierTargetLayout :=
  keeps_choice (.cons (.value _ (keeps_plain _)) (.cons (.value _ (keeps_plain _)) .nil))

section Recursion

variable {self : Decoder Statement} (hself : self.Keeps (.part .statement))

include hself

theorem keeps_courierBranch : (record (courierBranchFields self)).Keeps courierBranchLayout :=
  keeps_record (.seq (.seq (.seq (.seq (.map _ (keeps_required keeps_courierTarget))
    (keeps_required (keeps_named _))) keeps_defaultedPath) keeps_defaultedPath)
    (keeps_required hself)) rfl rfl

theorem keeps_nodeFields : List.Forall₂ TaggedKeeps nodeSlots (nodeFields self) :=
  have hbody {name : String} : (required name self).Keeps [.statement name] := keeps_required hself
  .cons (.tagged (.seq (.map _ keeps_position)
    (keeps_required (keeps_list (keeps_pair hself hself)))) rfl rfl) <|
  .cons (.tagged (.seq (.seq (.seq (.seq (.map _ keeps_position) keeps_text) keeps_defaultedPath)
    keeps_defaultedExpression) hbody) rfl rfl) <|
  .cons (.tagged (.seq (.seq (.map _ keeps_located)
    (keeps_required (keeps_list (keeps_pair Expression.keeps hself))))
    (keeps_optionalField _ hself)) rfl rfl) <|
  .cons (.tagged (.seq (.seq (.map _ keeps_located) keeps_expressionField) hbody) rfl rfl) <|
  .cons (.tagged (.seq (.seq (.seq (.seq (.map _ keeps_located) hbody) keeps_expressionField)
    hbody) hbody) rfl rfl) <|
  .cons (.tagged (.seq (.seq (.seq (.seq (.map _ keeps_located) (keeps_required (keeps_named _)))
    keeps_pathField) keeps_pathField) hbody) rfl rfl) <|
  .cons (.tagged (.seq (.seq (.map _ keeps_located) keeps_text) hbody) rfl rfl) <|
  .cons (.tagged (.seq (.map _ keeps_position)
    (keeps_required (keeps_list (keeps_pair (keeps_plain _) hself)))) rfl rfl) <|
  .cons (.tagged (.seq (.seq (.map _ keeps_located) keeps_text) hbody) rfl rfl) <|
  .cons (.tagged (.seq (.seq (.seq (.seq (.map _ keeps_located) keeps_pathField)
    keeps_expressionField) keeps_nullablePath) hbody) rfl rfl) <|
  .cons (.tagged (.seq (.seq (.map _ keeps_located) hbody) hbody) rfl rfl) <|
  .cons (.tagged (.seq (.map _ keeps_position)
    (keeps_required (keeps_list (keeps_courierBranch hself)))) rfl rfl) .nil

theorem keeps_variants : (choice (variants self)).Keeps Statement.layout := by
  have hlist := keeps_list hself
  refine keeps_choice (List.rel_append
    (.cons (.unit _ _) (.cons (.unit _ _) (.cons (.unit _ _) (.cons (.value _ (hlist.map _))
      (.cons (.value _ (hlist.map _)) .nil))))) ?_)
  rw [List.forall₂_map_left_iff, List.forall₂_map_right_iff]
  exact List.rel_append keeps_leafFields (keeps_nodeFields hself)

end Recursion

theorem keeps_decoderUpTo (depth : Nat) :
    Decoder.Keeps (decoderUpTo depth) (.part .statement) := by
  induction depth with
  | zero =>
    intro room j j' x _ hx
    cases hx
  | succ depth ih => exact keeps_part (keeps_variants ih)

theorem keeps : Decoder.Keeps decoder (.part .statement) :=
  fun room => keeps_decoderUpTo (room + 1) room

end Statement

theorem TypeMap.keeps : TypeMap.decoder.Keeps (.dictionary (.part .type)) :=
  keeps_dictionary TypeDefinition.keeps

theorem Operation.keeps : Operation.decoder.Keeps Operation.layout := by
  have htype {name : String} : (required name TypeDefinition.decoder).Keeps
      [.required name (.part .type)] := keeps_required TypeDefinition.keeps
  exact keeps_choice
    (.cons (.tagged (.seq (.seq (.map _ keeps_position) keeps_text) htype) rfl rfl)
    (.cons (.tagged (.seq (.seq (.seq (.seq (.map _ keeps_position) keeps_text) htype) htype)
      (keeps_defaulted TypeMap.keeps)) rfl rfl) .nil))

theorem Interface.keeps : Interface.decoder.Keeps Interface.layout :=
  keeps_record (.seq (.seq (.map _ keeps_position) keeps_text)
    (keeps_defaulted (keeps_dictionary Operation.keeps))) rfl rfl

theorem Aggregation.keeps : Aggregation.decoder.Keeps Aggregation.layout :=
  keeps_record (.seq (.map _ (keeps_required (keeps_list (keeps_plain _))))
    (keeps_optionalField _ (keeps_plain _))) rfl rfl

theorem Port.keeps : Port.fields.Keeps Port.slots :=
  .seq (.seq (.seq (.seq (.seq (.map _ keeps_position) keeps_text)
    (keeps_optionalField _ (keeps_plain _))) (keeps_optionalField _ (keeps_plain _)))
    (keeps_defaulted (keeps_list Operation.keeps))) (keeps_defaulted (keeps_list Interface.keeps))

theorem CorrelationVariable.keeps :
    CorrelationVariable.decoder.Keeps CorrelationVariable.layout := by
  have halias : CorrelationAlias.decoder.Keeps (.record [.plain "guard_name", .path "path"]) :=
    keeps_record (.seq (.map _ keeps_text) (keeps_required VariablePath.keeps)) rfl rfl
  exact keeps_record (.seq (.map _ (keeps_required VariablePath.keeps))
    (keeps_defaulted (keeps_list halias))) rfl rfl

theorem Declaration.keeps : Declaration.decoder.Keeps Declaration.layout := by
  have hbody : (required "body" Statement.decoder).Keeps [.statement "body"] :=
    keeps_required Statement.keeps
  exact keeps_choice
    (.cons (.value _ (TypeDefinition.keeps.map _))
    (.cons (.value _ (Interface.keeps.map _))
    (.cons (.tagged (.map _ (.seq (.map _ Port.keeps)
      (keeps_defaulted (keeps_list Aggregation.keeps)))) rfl rfl)
    (.cons (.tagged (.map _ Port.keeps) rfl rfl)
    (.cons (.tagged (.map _ (.seq (.map _ keeps_position) (keeps_required (keeps_named _))))
      rfl rfl)
    (.cons (.tagged (.map _ (.seq (.map _ keeps_position)
      (keeps_required (keeps_list CorrelationVariable.keeps)))) rfl rfl)
    (.cons (.tagged (.map _ (.seq (.seq (.map _ keeps_position) keeps_text) hbody)) rfl rfl)
    (.cons (.tagged (.map _ (.seq (.seq (.map _ keeps_position) keeps_text) hbody)) rfl rfl)
    (.cons (.tagged (.map _ (.seq (.seq (.seq (.map _ keeps_position) keeps_text) keeps_text)
      (keeps_optionalField _ (keeps_plain _)))) rfl rfl) .nil)))))))))

theorem Program.keeps : Program.decoder.Keeps Program.layout :=
  keeps_record (.seq (.map _ keeps_position) (keeps_required (keeps_list Declaration.keeps)))
    rfl rfl

section Texts

variable {α : Type}

theorem Decoder.ofText_eq_ok_iff {d : Decoder α} {text : String} {x : α} :
    d.ofText text = .ok x ↔ ∃ j, Json.Spelled text j ∧ d deepest j = .ok x := by
  constructor
  · intro h
    obtain ⟨y, hy, h⟩ := bind_eq_ok_iff.mp h
    obtain ⟨hclean, rfl⟩ := if_eq_ok_iff.mp h
    have hread : Json.Document.read text = ⟨(Json.Document.read text).root, true⟩ := by
      rw [← hclean]
    exact ⟨_, Json.Document.read_eq_iff.mp hread, hy⟩
  · rintro ⟨j, hspelled, hx⟩
    have hread := Json.Document.read_eq_iff.mpr hspelled
    simp only [ofText, hread]
    exact bind_eq_ok_iff.mpr ⟨x, hx, rfl⟩

theorem Decoder.Keeps.of_variations {d : Decoder α} {layout : Layout} (hd : d.Keeps layout)
    {room : Nat} {j j' : Json} {x : α}
    (h : Relation.ReflTransGen (layout.Varies room) j j') (hx : d room j = .ok x) :
    d room j' = .ok x := by
  induction h with
  | refl => exact hx
  | tail _ hvaries ih => exact hd _ _ _ _ hvaries ih

end Texts

/-- A text that decodes to a program spells a JSON value, and every text of that value worded
otherwise, at any number of places, decodes to the same program. -/
theorem Program.decoded_from_every_wording {text : String} {p : Program}
    (h : Program.decoder.ofText text = .ok p) :
    ∃ j, Json.Spelled text j ∧
      ∀ j', Relation.ReflTransGen (Program.layout.Varies deepest) j j' →
        ∀ text', Json.Spelled text' j' → Program.decoder.ofText text' = .ok p := by
  obtain ⟨j, hspelled, hj⟩ := ofText_eq_ok_iff.mp h
  exact ⟨j, hspelled, fun j' hvaries text' hspelled' =>
    ofText_eq_ok_iff.mpr ⟨j', hspelled', Program.keeps.of_variations hvaries hj⟩⟩

def closedDesk : Program :=
  ⟨.unknown, [.procedure ⟨.unknown, Procedure.mainId, .scope ⟨"desk.ol", 4⟩ "desk" .nullprocess⟩]⟩

def deskWith (extra scope : List (String × Json)) : Json :=
  Json.record
    [("children", Json.list [Json.tagged "procedure" (Json.record
      (extra ++ [("id", Json.text Procedure.mainId),
        ("body", Json.tagged "scope" (Json.record scope))]))])]

def deskPosition : String × Json := ("ctx", Position.unknown.toJson)

def deskNote : String × Json := ("note", Json.list [Json.record [("id", .bool true)]])

def scopeInOrder : List (String × Json) :=
  [("ctx", Position.toJson ⟨"desk.ol", 4⟩), ("id", Json.text "desk"),
    ("body", Json.text "nullprocess")]

def scopeReordered (body : Json) : List (String × Json) :=
  [("body", body), ("ctx", Position.toJson ⟨"desk.ol", 4⟩), ("id", Json.text "desk")]

theorem decoded_closedDesk :
    Program.decoder deepest (deskWith [deskPosition] scopeInOrder) = .ok closedDesk := rfl

theorem spelled_deskWith {extra scope : List (String × Json)} (hextra : ∀ m ∈ extra, m.2.Whole)
    (hscope : ∀ m ∈ scope, m.2.Whole) :
    Json.Spelled (deskWith extra scope).toText (deskWith extra scope) := by
  have hbody : (Json.tagged "scope" (Json.record scope)).Whole :=
    .record (List.forall_mem_singleton.mpr (.record hscope))
  have hmembers : ∀ m ∈ extra ++ [("id", Json.text Procedure.mainId),
      ("body", Json.tagged "scope" (Json.record scope))], m.2.Whole :=
    List.forall_mem_append.mpr ⟨hextra, List.forall_mem_cons.mpr
      ⟨.string _, List.forall_mem_singleton.mpr hbody⟩⟩
  refine Json.Whole.spelled (.record (List.forall_mem_singleton.mpr ?_))
  exact .list (List.forall_mem_singleton.mpr
    (.record (List.forall_mem_singleton.mpr (.record hmembers))))

/-- Three arrays and objects are open around a procedure. -/
theorem varies_procedure {members members' : List (String × Json)}
    (h : Layout.Varies (.record [.position, .plain "id", .statement "body"]) 124
      (Json.record members) (Json.record members')) :
    Layout.Varies Program.layout deepest
      (Json.record [("children", Json.list [Json.tagged "procedure" (Json.record members)])])
      (Json.record [("children", Json.list [Json.tagged "procedure" (Json.record members')])]) :=
  .member [] [] .closed (List.mem_cons_of_mem _ List.mem_cons_self)
    (.item [] [] .closed (.content [] .closed rfl h))

theorem varies_scope {extra : String × Json} {scope scope' : List (String × Json)}
    (h : Layout.Varies (.record [.located, .plain "id", .statement "body"]) 122
      (Json.record scope) (Json.record scope')) :
    Layout.Varies Program.layout deepest (deskWith [extra] scope) (deskWith [extra] scope') :=
  varies_procedure (.member [(some extra.1, extra.2), (some "id", _)] [] .closed
    (List.mem_cons_of_mem _ (List.mem_cons_of_mem _ List.mem_cons_self))
    (.part (.content [] .closed rfl h)))

/-- A default is left out and a field of no meaning is put in its place; inside the scope the
fields change their order and the bare variant gets an empty content. -/
theorem wordings_closedDesk :
    Relation.ReflTransGen (Program.layout.Varies deepest) (deskWith [deskPosition] scopeInOrder)
      (deskWith [deskNote] (scopeReordered (Json.tagged "nullprocess" .null))) := by
  have homitted : Program.layout.Varies deepest (deskWith [deskPosition] scopeInOrder)
      (deskWith [] scopeInOrder) :=
    varies_procedure (.omitted [] _ .closed List.mem_cons_self rfl rfl)
  have hadded : Program.layout.Varies deepest (deskWith [] scopeInOrder)
      (deskWith [deskNote] scopeInOrder) :=
    varies_procedure (.added _ _ [] _ .closed (by decide))
  have hperm : (scopeInOrder.take 2 ++ scopeInOrder.drop 2).Perm
      (scopeInOrder.drop 2 ++ scopeInOrder.take 2) := List.perm_append_comm
  have hpermuted : Program.layout.Varies deepest (deskWith [deskNote] scopeInOrder)
      (deskWith [deskNote] (scopeReordered (Json.text "nullprocess"))) :=
    varies_scope (.permuted _ _ .closed (hperm.map _))
  have hbare : Program.layout.Varies deepest
      (deskWith [deskNote] (scopeReordered (Json.text "nullprocess")))
      (deskWith [deskNote] (scopeReordered (Json.tagged "nullprocess" .null))) :=
    varies_scope (.member [] _ .closed
      (List.mem_cons_of_mem _ (List.mem_cons_of_mem _ List.mem_cons_self)) (.part (.bare _ rfl)))
  exact (((Relation.ReflTransGen.single homitted).tail hadded).tail hpermuted).tail hbare

theorem Program.decoded_from_every_wording_closedDesk :
    Program.decoder.ofText (deskWith [deskPosition] scopeInOrder).toText = .ok closedDesk ∧
      Program.decoder.ofText
        (deskWith [deskNote] (scopeReordered (Json.tagged "nullprocess" .null))).toText =
          .ok closedDesk := by
  have hposition (p : Position) : p.toJson.Whole :=
    (p.reads : Position.decoder.Reads 0 p.toJson p).whole
  have hnote : deskNote.2.Whole := .list (List.forall_mem_singleton.mpr
    (.record (List.forall_mem_singleton.mpr (.bool true))))
  have hbare : (Json.tagged "nullprocess" .null).Whole :=
    .record (List.forall_mem_singleton.mpr .null)
  have hbefore : Json.Spelled _ (deskWith [deskPosition] scopeInOrder) :=
    spelled_deskWith (by simp [deskPosition, hposition])
      (by simp [scopeInOrder, hposition, Json.Whole.string])
  have hafter : Json.Spelled _
      (deskWith [deskNote] (scopeReordered (Json.tagged "nullprocess" .null))) :=
    spelled_deskWith (by simp [hnote])
      (by simp [scopeReordered, hposition, hbare, Json.Whole.string])
  have htext := ofText_eq_ok_iff.mpr ⟨_, hbefore, decoded_closedDesk⟩
  obtain ⟨j, hspelled, hwordings⟩ := Program.decoded_from_every_wording htext
  obtain rfl := hspelled.unique hbefore
  exact ⟨htext, hwordings _ wordings_closedDesk _ hafter⟩

end ServiceCheck
