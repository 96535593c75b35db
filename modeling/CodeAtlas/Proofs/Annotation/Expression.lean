import CodeAtlas.Annotation

/-!
# Type expressions

The grammar of the types that annotations are written for: names with a qualifier, generic types in
either kind of brackets, arrays, and unions (`TypeExpr`). A union has two members or more and none of
them is a union, which the two kinds of trees see to, and a generic type has an argument. Each type has
a text (`TypeExpr.text`) and a meaning (`TypeExpr.meaning`): what it comes down to, by recursion on the
tree. Nothing here looks at texts to find a meaning; that the reader of annotations, which sees
nothing but the text, finds the same is shown elsewhere.
-/

namespace CodeAtlas

open Text

/-! ## 1. Names -/

/-- A part of a name between dots. -/
structure Segment where
  chars : List Char
  isIdentifier : TypeName.isIdentifier chars = true

/-- **A name with its qualifier**, which is not the word `readonly`. -/
structure QualifiedName where
  qualifier : List Segment
  last : Segment
  notReadonly : ¬ (qualifier = [] ∧ last.chars = "readonly".toList)

namespace QualifiedName

/-- The qualifier as written, with a dot behind each part. -/
def front (q : QualifiedName) : List Char :=
  q.qualifier.flatMap fun segment => segment.chars ++ ['.']

/-- The name as written. -/
def render (q : QualifiedName) : List Char :=
  q.front ++ q.last.chars

/-- The name without its qualifier. -/
def base (q : QualifiedName) : String :=
  String.ofList q.last.chars

/-- Whether the name has no qualifier and stands in a table. -/
def isOneOf (names : List String) (q : QualifiedName) : Bool :=
  q.qualifier.isEmpty && names.contains q.base

end QualifiedName

/-- The brackets around type arguments. -/
inductive Brackets where
  | angle
  | square
  deriving DecidableEq, Repr, Inhabited

namespace Brackets

def opening : Brackets → Char
  | angle => '<'
  | square => '['

def closing : Brackets → Char
  | angle => '>'
  | square => ']'

end Brackets

/-! ## 2. Trees -/

mutual

/-- **A type that is no union.** -/
inductive Operand where
  | name (q : QualifiedName)
  | generic (q : QualifiedName) (brackets : Brackets) (arguments : TypeArguments)
  | array (element : TypeExpr)

/-- **A type.** -/
inductive TypeExpr where
  | operand (o : Operand)
  | union (first : Operand) (others : Operands)

/-- The arguments of a generic type. -/
inductive TypeArguments where
  | last (t : TypeExpr)
  | cons (t : TypeExpr) (others : TypeArguments)

/-- Some members of a union. -/
inductive Operands where
  | last (o : Operand)
  | cons (o : Operand) (others : Operands)

end

/-- Whether a type is nothing but the name of a value that is none. -/
def Operand.isNullish : Operand → Bool
  | .name q => q.isOneOf TypeName.nullishNames
  | _ => false

@[inherit_doc Operand.isNullish]
def TypeExpr.isNullish : TypeExpr → Bool
  | .operand o => o.isNullish
  | .union .. => false

/-! ## 3. Texts -/

/-- The text of a type where it is the element of an array: a union stands in parentheses. -/
def TypeExpr.asElement (t : TypeExpr) (text : List Char) : List Char :=
  match t with
  | .operand _ => text
  | .union .. => '(' :: (text ++ [')'])

mutual

/-- The text of a type that is no union. -/
def Operand.render : Operand → List Char
  | .name q => q.render
  | .generic q brackets arguments =>
    q.render ++ brackets.opening :: (joinWith [',', ' '] arguments.renders ++ [brackets.closing])
  | .array element => element.asElement element.render ++ ['[', ']']

/-- The text of a type. -/
def TypeExpr.render : TypeExpr → List Char
  | .operand o => o.render
  | .union first others => joinWith [' ', '|', ' '] (first.render :: others.renders)

/-- The texts of some arguments. -/
def TypeArguments.renders : TypeArguments → List (List Char)
  | .last t => [t.render]
  | .cons t others => t.render :: others.renders

/-- The texts of some members of a union. -/
def Operands.renders : Operands → List (List Char)
  | .last o => [o.render]
  | .cons o others => o.render :: others.renders

end

/-- **The text of a type.** -/
def TypeExpr.text (t : TypeExpr) : String :=
  String.ofList t.render

/-! ## 4. Meanings -/

/-- A type as the element of a collection. -/
def CoreType.asCollection (core : CoreType) : CoreType :=
  { core with isArray := true }

/-- Whether there is one argument only. -/
def TypeArguments.isSingle : TypeArguments → Bool
  | .last _ => true
  | .cons .. => false

mutual

/-- **What a type that is no union comes down to.** -/
def Operand.meaning : Operand → Option CoreType
  | .name q => if q.isOneOf TypeName.untypedNames then none else some ⟨q.base, false, []⟩
  | .generic q _ arguments =>
    if q.base = "Union" then arguments.firstValue
    else if TypeName.containerNames.contains q.base && arguments.isSingle then
      arguments.first.map CoreType.asCollection
    else if TypeName.wrapperNames.contains q.base then arguments.first
    else some ⟨q.base, false, arguments.renders.map String.ofList⟩
  | .array element => element.meaning.map CoreType.asCollection

/-- **What a type comes down to**, nothing if it leaves the type open. -/
def TypeExpr.meaning : TypeExpr → Option CoreType
  | .operand o => o.meaning
  | .union first others => if first.isNullish then others.firstValue else first.meaning

/-- What the first argument comes down to. -/
def TypeArguments.first : TypeArguments → Option CoreType
  | .last t => t.meaning
  | .cons t _ => t.meaning

/-- What the first argument comes down to that is not nullish. -/
def TypeArguments.firstValue : TypeArguments → Option CoreType
  | .last t => if t.isNullish then none else t.meaning
  | .cons t others => if t.isNullish then others.firstValue else t.meaning

/-- What the first member comes down to that is not nullish. -/
def Operands.firstValue : Operands → Option CoreType
  | .last o => if o.isNullish then none else o.meaning
  | .cons o others => if o.isNullish then others.firstValue else o.meaning

end

end CodeAtlas
