import Mathlib.Data.List.Nodup
import Mathlib.Logic.Relation
import MonkeyFrontEnd.Proofs.Tree.Encoding
import MonkeyFrontEnd.Proofs.Tree.Shape

/-!
# What may be changed in a program's JSON

Changes to one object of a program's JSON that do not matter (`Shape.Rearranges`), changes that take
away what a program needs or add what it does not allow (`Shape.Damages`), and either of them at any
place that belongs to the program (`Shape.Within`); values of unknown parts do not. After any number
of changes of the first sort a text is read as the same program, after one more of the second sort
it is refused, and so it is with anything but blanks behind it (`Program.read?_edited`).
-/

set_option autoImplicit false

namespace MonkeyFrontEnd

open Json

namespace Shape

/-! ### Edits -/

/-- Changes of an object with parts that do not matter: the order of the parts, and parts with other
names. -/
inductive Rearranges (s : Shape) : Json → Json → Prop
  | reorder {ms ms' : List (List Piece × Json)} (struct : s.fields ≠ []) (order : ms.Perm ms') :
      Rearranges s (.object ms) (.object ms')
  | insert (ms ns : List (List Piece × Json)) {k : List Piece} {name : String} (value : Json)
      (struct : s.fields ≠ []) (loose : s ≠ span) (key : text? k = some name)
      (unknown : name ∉ s.fields.map Prod.fst) :
      Rearranges s (.object (ms ++ ns)) (.object (ms ++ (k, value) :: ns))

/-- The names that stand for themselves at a place: those of token kinds and of operators. -/
def names : Shape → List String
  | kind => Token.Kind.all.map Token.Kind.name
  | unaryOp => UnaryOp.all.map UnaryOp.name
  | binaryOp => BinaryOp.all.map BinaryOp.name
  | _ => []

/-- Changes that matter: a part that is needed is taken away or given twice, a span has a further
part, an object around a node has a second key, a kind or a name is unknown, a number is out of
range. -/
inductive Damages : Shape → Json → Json → Prop
  | remove {s : Shape} (ms ns : List (List Piece × Json)) {k : List Piece} {name : String}
      (value : Json) (key : text? k = some name) (known : name ∈ s.fields.map Prod.fst) :
      Damages s (.object (ms ++ (k, value) :: ns)) (.object (ms ++ ns))
  | duplicate {s : Shape} (ms ns : List (List Piece × Json)) {k : List Piece} {name : String}
      (value : Json) (key : text? k = some name) (known : name ∈ s.fields.map Prod.fst) :
      Damages s (.object (ms ++ ns)) (.object (ms ++ (k, value) :: ns))
  | extend (ms ns : List (List Piece × Json)) (m : List Piece × Json) :
      Damages span (.object (ms ++ ns)) (.object (ms ++ m :: ns))
  | secondKey {s : Shape} (several : s.variants ≠ []) (ms ns : List (List Piece × Json))
      (m : List Piece × Json) : Damages s (.object (ms ++ ns)) (.object (ms ++ m :: ns))
  | unknownKind {s : Shape} (several : s.variants ≠ []) {k k' : List Piece} (value : Json)
      (unknown : ∀ f ∈ s.variants, text? k' ≠ some f.1) :
      Damages s (.object [(k, value)]) (.object [(k', value)])
  | unknownName {s : Shape} (named : s.names ≠ []) {ps : List Piece} (value : Json)
      (unknown : ∀ name ∈ s.names, text? ps ≠ some name) : Damages s value (.string ps)
  | literalRange {i : Int} (value : Json)
      (outside : i < Int64.minValue.toInt ∨ Int64.maxValue.toInt < i) :
      Damages int64 value (.int i)
  | offsetRange {i : Int} (value : Json) (outside : i < 0 ∨ UInt64.size ≤ i) :
      Damages offset value (.int i)

/-- A change somewhere in what belongs to the program. -/
inductive Within (Edit : Shape → Json → Json → Prop) : Shape → Json → Json → Prop
  | here {s : Shape} {j j' : Json} (edit : Edit s j j') : Within Edit s j j'
  | item (js ks : List Json) {j j' : Json} (edit : Within Edit stmt j j') :
      Within Edit stmts (.array (js ++ j :: ks)) (.array (js ++ j' :: ks))
  | field {s : Shape} (ms ns : List (List Piece × Json)) {f : String × Shape} {k : List Piece}
      {j j' : Json} (own : f ∈ s.fields) (key : text? k = some f.1)
      (edit : Within Edit f.2 j j') :
      Within Edit s (.object (ms ++ (k, j) :: ns)) (.object (ms ++ (k, j') :: ns))
  | variant {s : Shape} {f : String × Shape} {k : List Piece} {j j' : Json} (own : f ∈ s.variants)
      (key : text? k = some f.1) (edit : Within Edit f.2 j j') :
      Within Edit s (.object [(k, j)]) (.object [(k, j')])

variable {s : Shape} {f g : String × Shape} {j j' : Json} {k : List Piece} {name : String}
  {ms ns : List (List Piece × Json)} {ps before behind : List (String × Json)} {v : s.Value}

/-! ### Looking up in a changed object -/

/-- A shape has no two fields of one name. -/
theorem eq_of_name_eq (hf : f ∈ s.fields) (hg : g ∈ s.fields) (same : f.1 = g.1) : f = g := by
  have distinct : (s.fields.map Prod.fst).Nodup := by cases s <;> simp [fields]
  exact List.inj_on_of_nodup_map distinct hf hg same

theorem lookup_perm {qs : List (String × Json)} (h : ps.Perm qs) (f : String × Shape) :
    lookup ps f = lookup qs f := by
  rw [lookup, lookup, found, found, part?_perm h]

/-- A part with another name plays no role. -/
theorem lookup_other (other : name ≠ f.1) (value : Json) :
    lookup (before ++ (name, value) :: behind) f = lookup (before ++ behind) f := by
  rw [lookup, lookup, found, found, part?_middle, part?_cons_other other]

theorem lookup_self (f : String × Shape) (value : Json) :
    lookup (before ++ (f.1, value) :: behind) f =
      if f.1 ∈ (before ++ behind).map Prod.fst then none else f.2.read value := by
  rw [lookup, found, part?_middle, part?_cons_self]
  split <;> rfl

/-- In an object that is read, a name of its shape occurs once, and its part is read. -/
theorem once_of_assemble {n : Nat} (own : f ∈ s.fields)
    (h : s.assemble (lookup (before ++ (f.1, j) :: behind)) n = some v) :
    f.1 ∉ (before ++ behind).map Prod.fst ∧ ∃ w, f.2.read j = some w := by
  have present := isSome_of_assemble h f own
  rw [lookup_self] at present
  split at present
  · cases present
  · rename_i once
    exact ⟨once, Option.isSome_iff_exists.1 present⟩

/-- What a read object had. -/
theorem exists_parts_of_read (struct : s.fields ≠ []) (h : s.read (.object ms) = some v) :
    ∃ ps, keyed? ms = some ps ∧ s.assemble (lookup ps) ps.length = some v := by
  rw [read_eq struct] at h
  exact Option.bind_eq_some_iff.1 h

theorem read_of_parts (struct : s.fields ≠ []) (h : keyed? ms = some ps) :
    s.read (.object ms) = s.assemble (lookup ps) ps.length := by
  rw [read_eq struct, parts?, h, Option.bind_some]

/-- An object is not read if a name of its shape is missing. -/
theorem read_eq_none (hf : f ∈ s.fields) (h : ∀ ps, keyed? ms = some ps → lookup ps f = none) :
    s.read (.object ms) = none := by
  have struct : s.fields ≠ [] := List.ne_nil_of_mem hf
  rw [Option.eq_none_iff_forall_ne_some]
  intro v hv
  obtain ⟨ps, hps, hv⟩ := exists_parts_of_read struct hv
  have present := isSome_of_assemble hv f hf
  rw [h ps hps] at present
  cases present

/-! ### Changes that do not matter -/

theorem read_reorder (struct : s.fields ≠ []) (order : ms.Perm ns)
    (h : s.read (.object ms) = some v) : s.read (.object ns) = some v := by
  obtain ⟨ps, hps, hv⟩ := exists_parts_of_read struct h
  obtain ⟨qs, hqs, perm⟩ := keyed?_perm order hps
  have same : ∀ f ∈ s.fields, lookup qs f = lookup ps f := fun f _ => (lookup_perm perm f).symm
  rw [read_of_parts struct hqs, assemble_congr same, ← perm.length_eq, hv]

theorem read_insert (struct : s.fields ≠ []) (loose : s ≠ span) (key : text? k = some name)
    (unknown : name ∉ s.fields.map Prod.fst) (value : Json)
    (h : s.read (.object (ms ++ ns)) = some v) :
    s.read (.object (ms ++ (k, value) :: ns)) = some v := by
  obtain ⟨ps, hps, hv⟩ := exists_parts_of_read struct h
  obtain ⟨before, behind, rfl, parts⟩ := keyed?_insert key value hps
  have same : ∀ f ∈ s.fields,
      lookup (before ++ (name, value) :: behind) f = lookup (before ++ behind) f := by
    intro f hf
    refine lookup_other ?_ value
    rintro rfl
    exact unknown (List.mem_map_of_mem hf)
  rw [read_of_parts struct parts, assemble_congr same, assemble_count loose, hv]

/-- A part of an object that is read, and what the object would be read as with another value for
it. -/
theorem exists_value_of_read (own : f ∈ s.fields) (key : text? k = some f.1)
    (h : s.read (.object (ms ++ (k, j) :: ns)) = some v) :
    (∃ w, f.2.read j = some w) ∧
      (f.2.read j' = f.2.read j → s.read (.object (ms ++ (k, j') :: ns)) = some v) ∧
      (f.2.read j' = none → s.read (.object (ms ++ (k, j') :: ns)) = none) := by
  have struct : s.fields ≠ [] := List.ne_nil_of_mem own
  obtain ⟨ps, hps, hv⟩ := exists_parts_of_read struct h
  obtain ⟨before, behind, hbefore, hbehind, rfl⟩ := (keyed?_middle key).1 hps
  have parts : keyed? (ms ++ (k, j') :: ns) = some (before ++ (f.1, j') :: behind) :=
    (keyed?_middle key).2 ⟨before, behind, hbefore, hbehind, rfl⟩
  obtain ⟨once, present⟩ := once_of_assemble own hv
  refine ⟨present, fun same => ?_, fun refused => ?_⟩
  · have all : ∀ g ∈ s.fields,
        lookup (before ++ (f.1, j') :: behind) g = lookup (before ++ (f.1, j) :: behind) g := by
      intro g hg
      by_cases here : f.1 = g.1
      · obtain rfl := eq_of_name_eq own hg here
        rw [lookup_self, lookup_self, if_neg once, if_neg once, same]
      · rw [lookup_other here, lookup_other here]
    rw [read_of_parts struct parts, assemble_congr all, ← hv]
    simp
  · refine read_eq_none own fun ps hps => ?_
    obtain rfl := Option.some.inj (parts.symm.trans hps)
    rw [lookup_self, if_neg once, refused]

/-- Statements among others. -/
theorem asStmts?_middle (js ks : List Json) (j : Json) : asStmts? (.array (js ++ j :: ks)) =
    (asStmts? (.array js)).bind fun before => (Stmt.ofJson? j).bind fun s =>
      (asStmts? (.array ks)).map fun behind => before ++ s :: behind := by
  induction js with
  | nil => simp [asStmts?_cons]
  | cons i js ih =>
    rw [List.cons_append, asStmts?_cons, asStmts?_cons, ih]
    cases Stmt.ofJson? i <;> cases asStmts? (.array js) <;> cases Stmt.ofJson? j <;>
      cases asStmts? (.array ks) <;> rfl

/-- A statement in a list that is read, and what the list would be read as with another value for
it. -/
theorem exists_item_of_read {v : stmts.Value} {js ks : List Json}
    (h : stmts.read (.array (js ++ j :: ks)) = some v) :
    (∃ w, stmt.read j = some w) ∧
      (stmt.read j' = stmt.read j → stmts.read (.array (js ++ j' :: ks)) = some v) ∧
      (stmt.read j' = none → stmts.read (.array (js ++ j' :: ks)) = none) := by
  change asStmts? (.array (js ++ j :: ks)) = some v at h
  change (∃ s, Stmt.ofJson? j = some s) ∧
    (Stmt.ofJson? j' = Stmt.ofJson? j → asStmts? (.array (js ++ j' :: ks)) = some v) ∧
    (Stmt.ofJson? j' = none → asStmts? (.array (js ++ j' :: ks)) = none)
  rw [asStmts?_middle] at h ⊢
  refine ⟨?_, fun same => by rw [same, h], fun refused => ?_⟩
  · obtain ⟨before, -, h⟩ := Option.bind_eq_some_iff.1 h
    obtain ⟨s, hs, -⟩ := Option.bind_eq_some_iff.1 h
    exact ⟨s, hs⟩
  · rw [refused]
    cases asStmts? (.array js) <;> rfl

/-- After a change that does not matter the same is read. -/
theorem read_of_rearranged (h : Within Rearranges s j j') :
    ∀ {v : s.Value}, s.read j = some v → s.read j' = some v := by
  induction h with
  | here edit =>
    intro v hv
    cases edit with
    | reorder struct order => exact read_reorder struct order hv
    | insert ms ns value struct loose key unknown =>
      exact read_insert struct loose key unknown value hv
  | item js ks edit ih =>
    intro v hv
    obtain ⟨⟨w, hw⟩, change, -⟩ := exists_item_of_read hv
    exact change ((ih hw).trans hw.symm)
  | field ms ns own key edit ih =>
    intro v hv
    obtain ⟨⟨w, hw⟩, change, -⟩ := exists_value_of_read own key hv
    exact change ((ih hw).trans hw.symm)
  | variant own key edit ih =>
    intro v hv
    obtain ⟨w, body⟩ := exists_body_of_read own key hv
    rw [read_variant_congr own key ((ih body).trans body.symm), hv]

/-! ### Changes that matter -/

/-- Nothing is found under a name that does not occur. -/
theorem lookup_absent (absent : f.1 ∉ ps.map Prod.fst) : lookup ps f = none := by
  rw [lookup, found]
  cases part : part? ps f.1 with
  | none => rfl
  | some j => exact absurd (List.mem_map_of_mem (mem_of_part? part)) absent

theorem read_remove {value : Json} (own : f ∈ s.fields) (key : text? k = some f.1)
    (h : s.read (.object (ms ++ (k, value) :: ns)) = some v) :
    s.read (.object (ms ++ ns)) = none := by
  obtain ⟨ps, hps, hv⟩ := exists_parts_of_read (List.ne_nil_of_mem own) h
  obtain ⟨before, behind, rfl, parts⟩ := keyed?_remove key hps
  obtain ⟨once, -⟩ := once_of_assemble own hv
  refine read_eq_none own fun qs hqs => ?_
  obtain rfl := Option.some.inj (parts.symm.trans hqs)
  exact lookup_absent once

theorem read_duplicate (own : f ∈ s.fields) (key : text? k = some f.1) (value : Json)
    (h : s.read (.object (ms ++ ns)) = some v) :
    s.read (.object (ms ++ (k, value) :: ns)) = none := by
  obtain ⟨ps, hps, hv⟩ := exists_parts_of_read (List.ne_nil_of_mem own) h
  obtain ⟨before, behind, rfl, parts⟩ := keyed?_insert key value hps
  have present := isSome_of_assemble hv f own
  have occurs : f.1 ∈ (before ++ behind).map Prod.fst := by
    by_contra absent
    rw [lookup_absent absent] at present
    cases present
  refine read_eq_none own fun qs hqs => ?_
  obtain rfl := Option.some.inj (parts.symm.trans hqs)
  rw [lookup_self, if_pos occurs]

/-- The number of members of a span that is read. -/
theorem length_of_read_span {v : span.Value} (h : span.read (.object ms) = some v) :
    ms.length = 2 := by
  obtain ⟨ps, hps, hv⟩ := exists_parts_of_read (by simp [fields]) h
  rw [← length_of_assemble_span hv]
  exact (length_of_keyed? hps).symm

/-- An object that has to have a certain number of members is not read with one more. -/
theorem read_oneMore {count : Nat}
    (counted : ∀ {ms} {v : s.Value}, s.read (.object ms) = some v → ms.length = count)
    (m : List Piece × Json) (h : s.read (.object (ms ++ ns)) = some v) :
    s.read (.object (ms ++ m :: ns)) = none := by
  rw [Option.eq_none_iff_forall_ne_some]
  intro w hw
  have more := counted hw
  have enough := counted h
  rw [List.length_append] at enough
  rw [List.length_append, List.length_cons] at more
  omega

/-- A node has one key. -/
theorem length_of_read_node (several : s.variants ≠ []) (h : s.read (.object ms) = some v) :
    ms.length = 1 := by
  obtain ⟨k, j, rfl, -⟩ := exists_variant_of_read several h
  rfl

theorem read_unknownKind (several : s.variants ≠ []) (value : Json)
    (unknown : ∀ f ∈ s.variants, text? k ≠ some f.1) : s.read (.object [(k, value)]) = none := by
  rw [Option.eq_none_iff_forall_ne_some]
  intro v hv
  obtain ⟨k', j, same, f, hf, hk⟩ := exists_variant_of_read several hv
  cases same
  exact unknown f hf hk

/-- A text that names nothing. -/
theorem bind_ofName?_eq_none {α : Type} {ofName? : String → Option α} {all : List α}
    {name : α → String} {ps : List Piece} (h : ∀ s, ofName? s = all.find? fun a => name a = s)
    (unknown : ∀ n ∈ all.map name, text? ps ≠ some n) :
    (asName? (.string ps)).bind ofName? = none := by
  rw [asName?, Option.bind_eq_none_iff]
  intro s hs
  rw [h, List.find?_eq_none]
  intro a ha same
  refine unknown (name a) (List.mem_map_of_mem ha) ?_
  rw [hs, of_decide_eq_true same]

theorem read_unknownName {ps : List Piece} (named : s.names ≠ [])
    (unknown : ∀ name ∈ s.names, text? ps ≠ some name) : s.read (.string ps) = none := by
  cases s with
  | kind => exact bind_ofName?_eq_none (fun _ => rfl) unknown
  | unaryOp => exact bind_ofName?_eq_none (fun _ => rfl) unknown
  | binaryOp => exact bind_ofName?_eq_none (fun _ => rfl) unknown
  | _ => exact absurd rfl named

/-- A name may stand by itself or in an object. -/
theorem read_object_null (named : s.names ≠ []) (ps : List Piece) :
    s.read (.object [(ps, .null)]) = s.read (.string ps) := by
  cases s <;> first | rfl | exact absurd rfl named

theorem asInt64?_eq_none {i : Int} (h : i < Int64.minValue.toInt ∨ Int64.maxValue.toInt < i) :
    asInt64? (.int i) = none := by
  rw [asInt64?, if_neg]
  omega

theorem asOffset?_eq_none {i : Int} (h : i < 0 ∨ UInt64.size ≤ i) : asOffset? (.int i) = none := by
  rw [asOffset?, if_neg]
  omega

/-- After a change that matters nothing is read. -/
theorem read_of_damaged (h : Within Damages s j j') :
    ∀ {v : s.Value}, s.read j = some v → s.read j' = none := by
  induction h with
  | here edit =>
    intro v hv
    cases edit with
    | remove ms ns value key known =>
      obtain ⟨f, own, rfl⟩ := List.mem_map.1 known
      exact read_remove own key hv
    | duplicate ms ns value key known =>
      obtain ⟨f, own, rfl⟩ := List.mem_map.1 known
      exact read_duplicate own key value hv
    | extend ms ns m => exact read_oneMore length_of_read_span m hv
    | secondKey several ms ns m => exact read_oneMore (length_of_read_node several) m hv
    | unknownKind several value unknown => exact read_unknownKind several value unknown
    | unknownName named value unknown => exact read_unknownName named unknown
    | literalRange value outside => exact asInt64?_eq_none outside
    | offsetRange value outside => exact asOffset?_eq_none outside
  | item js ks edit ih =>
    intro v hv
    obtain ⟨⟨w, hw⟩, -, refuse⟩ := exists_item_of_read hv
    exact refuse (ih hw)
  | field ms ns own key edit ih =>
    intro v hv
    obtain ⟨⟨w, hw⟩, -, refuse⟩ := exists_value_of_read own key hv
    exact refuse (ih hw)
  | variant own key edit ih =>
    intro v hv
    obtain ⟨w, body⟩ := exists_body_of_read own key hv
    exact read_variant_eq_none own key (ih body)

end Shape

/-! ### Whole texts -/

namespace Program

variable {p : Program} {j j' : Json} {text : String}

open Relation (ReflTransGen)

/-- What is made of a program's JSON by changes that do not matter, anywhere and any number of
them. -/
def Presentation (p : Program) : Json → Prop :=
  ReflTransGen (Shape.Within Shape.Rearranges .program) p.toJson

theorem Presentation.ofJson? (range : p.InRange) (h : p.Presentation j) :
    Program.ofJson? j = some p := by
  induction h with
  | refl => exact ofJson?_toJson range
  | tail _ edit ih => exact Shape.read_of_rearranged edit ih

/-- Whatever is changed of an object of parts, it stays an object. -/
theorem eq_object_of_rearranged {s : Shape} (struct : s.fields ≠ [])
    (h : Shape.Within Shape.Rearranges s j j') : ∃ ms, j' = .object ms := by
  cases h with
  | here edit => cases edit <;> exact ⟨_, rfl⟩
  | item => exact absurd rfl struct
  | field | variant => exact ⟨_, rfl⟩

theorem Presentation.eq_object (h : p.Presentation j) : ∃ ms, j = .object ms := by
  cases h with
  | refl => exact ⟨_, rfl⟩
  | tail _ edit => exact eq_object_of_rearranged (by simp [Shape.fields]) edit

/-- A text of a program's JSON is read as the program, however it is presented. It is refused once a
needed part is missing or there twice, a span has a further part, a node has two kinds or none that
is known, or a number is out of range, wherever in the program that is, and if anything but blanks
follows. -/
theorem read?_edited (range : p.InRange) (near : p.toJson.nesting ≤ maxNesting)
    (presented : p.Presentation j) (spelled : j.SpelledBy text) :
    read? text = some p ∧
      (∀ j' text', Shape.Within Shape.Damages .program j j' → j'.SpelledBy text' →
        read? text' = none) ∧
      ∀ c, isSpace c = false → read? (text.push c) = none := by
  have decoded := presented.ofJson? range
  refine ⟨?_, ?_, ?_⟩
  · exact (read?_eq_some_iff_of_read? (read?_of_spelledBy spelled)).2 ⟨decoded, near⟩
  · intro j' text' damaged spelled'
    have refused : Program.ofJson? j' = none := Shape.read_of_damaged damaged decoded
    rw [read?, read?_of_spelledBy spelled', Option.bind_some, refused, Option.filter_none]
  · intro c hc
    obtain ⟨ms, rfl⟩ := presented.eq_object
    rw [read?, read?_push_eq_none spelled hc, Option.bind_none, Option.filter_none]

/-- `-5`, made by hand. -/
def negation : Program :=
  ⟨[.exprStmt ⟨.minus, "-", ⟨0, 1⟩⟩
    (.unary ⟨.minus, "-", ⟨0, 1⟩⟩ .neg (.int ⟨.int, "5", ⟨1, 2⟩⟩ 5))]⟩

/-- Its JSON, with the given parts for the unary operator. -/
def negationJson (body : List (String × Json)) : Json :=
  .ofFields [("statements", .array [.ofFields [("Expression", .ofFields
    [("token", Token.toJson ⟨.minus, "-", ⟨0, 1⟩⟩),
      ("expression", .ofFields [("Prefix", .ofFields body)])])]])]

/-- What may be changed in the parts for the unary operator may be changed in the whole. -/
theorem within_negationJson {Edit : Shape → Json → Json → Prop} {b b' : List (String × Json)}
    (h : Shape.Within Edit .unaryBody (.ofFields b) (.ofFields b')) :
    Shape.Within Edit .program (negationJson b) (negationJson b') := by
  have prefixed : ("Prefix", Shape.unaryBody) ∈ Shape.variants .expr := by simp [Shape.variants]
  have expression : ("expression", Shape.expr) ∈ Shape.fields .exprBody := by simp [Shape.fields]
  have wrapped : ("Expression", Shape.exprBody) ∈ Shape.variants .stmt := by simp [Shape.variants]
  have statements : ("statements", Shape.stmts) ∈ Shape.fields .program := by simp [Shape.fields]
  refine .field [] [] statements (text?_pieces _) (.item [] [] ?_)
  refine .variant wrapped (text?_pieces _) ?_
  refine .field [(pieces "token", Token.toJson ⟨.minus, "-", ⟨0, 1⟩⟩)] [] expression
    (text?_pieces _) ?_
  exact .variant prefixed (text?_pieces _) h

/-- The parts for the unary operator, but for its operand. -/
def negationParts : List (String × Json) :=
  [("token", Token.toJson ⟨.minus, "-", ⟨0, 1⟩⟩), ("operator", .ofString "Neg")]

/-- Its operand. -/
def negationOperand : String × Json :=
  ("right", Expr.toJson (.int ⟨.int, "5", ⟨1, 2⟩⟩ 5))

/-- A part that is not needed, which contains a name that is. -/
def negationNote : String × Json :=
  ("note", .array [.null, .ofFields [("token", .int (-3))]])

/-- The parts in another order, with the one that is not needed, and with others behind them. -/
def negationShuffled (others : List (String × Json)) : Json :=
  negationJson (negationOperand :: negationNote :: negationParts ++ others)

theorem presentation_negationShuffled : negation.Presentation (negationShuffled []) := by
  have reordered : Shape.Within Shape.Rearranges .program negation.toJson
      (negationJson (negationOperand :: negationParts)) :=
    within_negationJson (.here (.reorder (by simp [Shape.fields])
      ((List.perm_append_comm : List.Perm (negationParts ++ [negationOperand]) _).map _)))
  have inserted : Shape.Within Shape.Rearranges .program
      (negationJson (negationOperand :: negationParts)) (negationShuffled []) :=
    within_negationJson (.here (.insert [_] _ _ (by simp [Shape.fields]) (by simp)
      (text?_pieces "note") (by simp [Shape.fields])))
  exact (ReflTransGen.single reordered).tail inserted

theorem writable_negationShuffled {others : List (String × Json)}
    (h : ∀ f ∈ others, Writable f.2) : Writable (negationShuffled others) := by
  have token := Token.writable_toJson ⟨.minus, "-", ⟨0, 1⟩⟩
  have note : Writable negationNote.2 :=
    .array (List.forall_mem_cons.2 ⟨.null, List.forall_mem_singleton.2
      (writable_ofFields (List.forall_mem_singleton.2 (.int _)))⟩)
  have body : Writable
      (.ofFields (negationOperand :: negationNote :: negationParts ++ others)) := by
    refine writable_ofFields (List.forall_mem_cons.2 ⟨Expr.writable_toJson _, ?_⟩)
    exact List.forall_mem_cons.2 ⟨note, List.forall_mem_cons.2 ⟨token, List.forall_mem_cons.2
      ⟨writable_ofString "Neg", h⟩⟩⟩
  refine writable_ofFields (List.forall_mem_singleton.2 (.array (List.forall_mem_singleton.2 ?_)))
  refine writable_kind (List.forall_mem_cons.2 ⟨token, List.forall_mem_singleton.2 ?_⟩)
  exact writable_ofFields (List.forall_mem_singleton.2 body)

/-- The shuffled text is read; with the operator given twice it is not. -/
theorem read?_edited_negation :
    (negation.InRange ∧ negation.toJson.nesting ≤ maxNesting ∧
      negation.Presentation (negationShuffled []) ∧
      (negationShuffled []).SpelledBy (indented (negationShuffled []))) ∧
    read? (indented (negationShuffled [])) = some negation ∧
    read? (indented (negationShuffled [("operator", .ofString "Neg")])) = none ∧
    read? ((indented (negationShuffled [])).push ',') = none := by
  have range : negation.InRange := by
    simp [InRange, negation, Stmt.InRange, Expr.InRange, Span.InRange, UInt64.size]
  have near : negation.toJson.nesting ≤ maxNesting := by decide
  have spelled : (negationShuffled []).SpelledBy (indented (negationShuffled [])) :=
    spelledBy_write Layout.blank_indented (writable_negationShuffled (by simp))
  have spelled' : (negationShuffled [("operator", .ofString "Neg")]).SpelledBy
      (indented (negationShuffled [("operator", .ofString "Neg")])) :=
    spelledBy_write Layout.blank_indented
      (writable_negationShuffled (List.forall_mem_singleton.2 (writable_ofString "Neg")))
  have damaged : Shape.Within Shape.Damages .program (negationShuffled [])
      (negationShuffled [("operator", .ofString "Neg")]) :=
    within_negationJson (.here (.duplicate [_, _, _, _] [] _ (text?_pieces "operator")
      (by simp [Shape.fields])))
  obtain ⟨whole, refused, behind⟩ :=
    read?_edited range near presentation_negationShuffled spelled
  exact ⟨⟨range, near, presentation_negationShuffled, spelled⟩, whole,
    refused _ _ damaged spelled', behind ',' (by decide)⟩

end Program

end MonkeyFrontEnd
