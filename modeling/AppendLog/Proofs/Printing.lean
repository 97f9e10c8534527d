import AppendLog.Proofs.Parsing

/-! A shape's own expression is read as that shape.

What is printed for a shape is an expression of the grammar, whatever stands behind it that does not
go on with a name. Shapes that have been read can be printed: the grammar itself asks for their names
to be names and for their lengths to be words.
-/

set_option autoImplicit false

namespace AppendLog.Shape

mutual

/-- All of the shape can be written: every field has a name, and every length fits in a word. -/
def Printable : Shape → Prop
  | seq item | optional item => item.Printable
  | array item length => item.Printable ∧ length < lengthLimit
  | record fields => AllPrintable fields
  | bool | int _ | float _ | complex _ | text | void _ => True

def AllPrintable : List (String × Shape) → Prop
  | [] => True
  | (name, shape) :: rest => IsName name.toList ∧ shape.Printable ∧ AllPrintable rest

end

theorem printable_of_named : ∀ entry ∈ named, entry.2.Printable := by
  simp [named, IntKind.all, FloatKind.all, VoidKind.all, Printable]

mutual

theorem printable_of_expression {shape : Shape} {a b : List Char} (expression : Expression shape a b) :
    shape.Printable := by
  cases expression with
  | named known _ => exact printable_of_named _ known
  | optional _ item => exact (printable_of_expression item :)
  | seq _ item _ => exact (printable_of_expression item :)
  | array _ item _ length _ =>
    obtain ⟨-, -, fits, -⟩ := length
    exact ⟨printable_of_expression item, fits⟩
  | emptyRecord => trivial
  | record _ list _ => exact allPrintable_of_fieldList list
  | recordWithComma _ list _ _ => exact allPrintable_of_fieldList list

theorem allPrintable_of_fieldList {members : List (String × Shape)} {a b : List Char}
    (list : FieldList members a b) : AllPrintable members := by
  cases list with
  | last name _ member => exact ⟨name.isName, printable_of_expression member, trivial⟩
  | more name _ member _ rest =>
    exact ⟨name.isName, printable_of_expression member, allPrintable_of_fieldList rest⟩

end

/-! Tokens in printed text -/

section Tokens

variable {run a b : List Char} {c : Char}

theorem token_append (run after : List Char) : Token run (run ++ after) after := ⟨[], by simp, rfl⟩

theorem Token.behind_blank (token : Token run a b) (blank : Text.isBlank c = true) :
    Token run (c :: a) b := by
  obtain ⟨blanks, allBlank, rfl⟩ := token
  exact ⟨c :: blanks, by simpa using ⟨blank, allBlank⟩, rfl⟩

theorem NameToken.behind_blank {name : String} (read : NameToken name a b)
    (blank : Text.isBlank c = true) : NameToken name (c :: a) b :=
  ⟨read.isName, read.token.behind_blank blank, read.longest⟩

theorem LengthToken.behind_blank {length : Nat} (read : LengthToken length a b)
    (blank : Text.isBlank c = true) : LengthToken length (c :: a) b := by
  obtain ⟨nonempty, digits, fits, token⟩ := read
  exact .mk nonempty digits fits (token.behind_blank blank)

theorem Expression.behind_blank {shape : Shape} (expression : Expression shape a b)
    (blank : Text.isBlank c = true) : Expression shape (c :: a) b := by
  cases expression with
  | named known read => exact .named known (read.behind_blank blank)
  | optional mark item => exact .optional (mark.behind_blank blank) item
  | seq mark item closed => exact .seq (mark.behind_blank blank) item closed
  | array mark item semicolon length closed =>
    exact .array (mark.behind_blank blank) item semicolon length closed
  | emptyRecord mark closed => exact .emptyRecord (mark.behind_blank blank) closed
  | record mark list closed => exact .record (mark.behind_blank blank) list closed
  | recordWithComma mark list comma closed =>
    exact .recordWithComma (mark.behind_blank blank) list comma closed

theorem FieldList.behind_blank {members : List (String × Shape)} (list : FieldList members a b)
    (blank : Text.isBlank c = true) : FieldList members (c :: a) b := by
  cases list with
  | last name colon member => exact .last (name.behind_blank blank) colon member
  | more name colon member comma rest => exact .more (name.behind_blank blank) colon member comma rest

theorem nameToken_append {name : String} (isName : IsName name.toList) {after : List Char}
    (stop : ∀ c ∈ after.head?, isNamePart c = false) : NameToken name (name.toList ++ after) after :=
  ⟨isName, token_append _ _, stop⟩

theorem lengthToken_repr {length : Nat} (fits : length < lengthLimit) (after : List Char) :
    LengthToken length (length.repr.toList ++ after) after := by
  have value : Nat.ofDigitChars 10 (Nat.toDigits 10 length) 0 = length :=
    Nat.ofDigitChars_ten_toDigits
  have read := LengthToken.mk Nat.toDigits_ne_nil
    (fun c member => Nat.isDigit_of_mem_toDigits (by decide) (by decide) member) (by rwa [value])
    (token_append (Nat.toDigits 10 length) after)
  rwa [value, ← Nat.toList_repr] at read

end Tokens

/-! Printed shapes -/

theorem isName_of_named : ∀ entry ∈ named, IsName entry.1.toList := by
  decide

theorem renderMoreFields_cons (field : String × Shape) (rest : List (String × Shape)) :
    renderMoreFields (field :: rest) = ", " ++ renderFields (field :: rest) := by
  simp [renderMoreFields, renderFields, String.append_assoc]

theorem expression_named {name : String} {shape : Shape} (known : (name, shape) ∈ named)
    {after : List Char} (stop : ∀ c ∈ after.head?, isNamePart c = false) :
    Expression shape (name.toList ++ after) after :=
  .named known (nameToken_append (isName_of_named _ known) stop)

theorem stops_at {mark : Char} (other : isNamePart mark = false) (after : List Char) :
    ∀ c ∈ (mark :: after).head?, isNamePart c = false := by
  simpa using other

theorem isBlank_space : Text.isBlank ' ' = true := by decide

mutual

theorem expression_render (shape : Shape) (printable : shape.Printable) {after : List Char}
    (stop : ∀ c ∈ after.head?, isNamePart c = false) :
    Expression shape (shape.render.toList ++ after) after := by
  match shape with
  | bool => exact expression_named (by decide) stop
  | text => exact expression_named (by decide) stop
  | int kind => exact expression_named (by cases kind <;> decide) stop
  | float kind => exact expression_named (by cases kind <;> decide) stop
  | complex kind => exact expression_named (by cases kind <;> decide) stop
  | void kind => exact expression_named (by cases kind <;> decide) stop
  | optional item =>
    have inner := expression_render item printable stop
    simp only [render, String.toList_append, List.append_assoc]
    exact .optional (token_append ['?'] _) inner
  | seq item =>
    have inner := expression_render item printable (stops_at (by decide : isNamePart ']' = false) after)
    simp only [render, String.toList_append, List.append_assoc]
    exact .seq (token_append ['['] _) inner (token_append [']'] after)
  | array item length =>
    obtain ⟨printable, fits⟩ := printable
    have number := (lengthToken_repr fits (']' :: after)).behind_blank isBlank_space
    have inner := expression_render item printable
      (stops_at (by decide : isNamePart ';' = false) (' ' :: (length.repr.toList ++ ']' :: after)))
    simp only [render, String.toList_append, List.append_assoc]
    exact .array (token_append ['['] _) inner (token_append [';'] _) number (token_append [']'] after)
  | record [] =>
    exact .emptyRecord (token_append ['\x7b'] _) (token_append ['\x7d'] after)
  | record (field :: rest) =>
    have list := fieldList_render (field :: rest) printable (List.cons_ne_nil _ _)
      (stops_at (by decide : isNamePart '\x7d' = false) after)
    simp only [render, String.toList_append, List.append_assoc]
    exact .record (token_append ['\x7b'] _) list (token_append ['\x7d'] after)

theorem fieldList_render (fields : List (String × Shape)) (printable : AllPrintable fields)
    (nonempty : fields ≠ []) {after : List Char} (stop : ∀ c ∈ after.head?, isNamePart c = false) :
    FieldList fields ((renderFields fields).toList ++ after) after := by
  match fields with
  | [(name, member)] =>
    obtain ⟨isName, printable, -⟩ := printable
    have inner := (expression_render member printable stop).behind_blank isBlank_space
    simp only [renderFields, renderMoreFields, String.toList_append, List.append_assoc]
    exact .last (nameToken_append isName (stops_at (by decide) _)) (token_append [':'] _) inner
  | (name, member) :: field :: rest =>
    obtain ⟨isName, printable, others⟩ := printable
    have list := (fieldList_render (field :: rest) others (List.cons_ne_nil _ _) stop).behind_blank
      isBlank_space
    have inner := (expression_render member printable (stops_at (by decide : isNamePart ',' = false)
      (' ' :: ((renderFields (field :: rest)).toList ++ after)))).behind_blank isBlank_space
    rw [renderFields, renderMoreFields_cons]
    simp only [String.toList_append, List.append_assoc]
    exact .more (nameToken_append isName (stops_at (by decide) _)) (token_append [':'] _) inner
      (token_append [','] _) list

end

theorem denotes_render {shape : Shape} (printable : shape.Printable) : Denotes shape.render shape := by
  have expression : Expression shape (shape.render.toList ++ []) [] :=
    expression_render shape printable (by simp)
  rw [List.append_nil] at expression
  exact ⟨[], expression, by simp⟩

/-- A shape that can be written is read back from its own expression, as is every shape that has been
read from any. -/
theorem parse_render : (∀ shape : Shape, shape.Printable → parse shape.render = .ok shape) ∧
    ∀ text shape, parse text = .ok shape → parse shape.render = .ok shape := by
  refine ⟨fun shape printable => parse_of_denotes (denotes_render printable), fun text shape read => ?_⟩
  obtain ⟨after, expression, -⟩ := denotes_of_parse read
  exact parse_of_denotes (denotes_render (printable_of_expression expression))

theorem parse_render_of_nested :
    let shape : Shape := .record [("_id", .array (.array (.int .u8) 0) (2 ^ 64 - 1)),
      ("next2", .optional (.optional (.record []))), ("_id", .seq (.record [("x", .void .map)]))]
    shape.Printable ∧ parse shape.render = .ok shape := by
  intro shape
  have printable : shape.Printable :=
    ⟨by decide, ⟨⟨trivial, by decide⟩, by decide⟩, by decide, trivial, by decide, ⟨by decide, trivial, trivial⟩,
      trivial⟩
  exact ⟨printable, parse_render.1 shape printable⟩

end AppendLog.Shape
