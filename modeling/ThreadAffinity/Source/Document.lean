import ThreadAffinity.Json.Shape
import ThreadAffinity.Json.Value
import ThreadAffinity.Source.Syntax

/-!
Source files as JSON documents.

Writing puts every field down, in the order of its declaration, and `null` for what is absent.
Reading takes the fields in any order and lets those be left out that have a default. A reader is
given the number of brackets that may still be opened (`room`), and gives the content of a bracket
one fewer. -/

namespace ThreadAffinity

open Json

/-! ### Names -/

namespace MemberKind

/-- Every kind of member. -/
def all : List MemberKind := [method, constructor, field]

/-- The word under which a kind is written. -/
def name : MemberKind → String
  | method => "Method"
  | constructor => "Constructor"
  | field => "Field"

end MemberKind

namespace Visibility

/-- Every visibility, widest first. -/
def all : List Visibility := [pub, prot, pkg, priv]

/-- The word under which a visibility is written. -/
def name : Visibility → String
  | pub => "Public"
  | prot => "Protected"
  | pkg => "Package"
  | priv => "Private"

end Visibility

namespace Access

/-- Every sort of access. -/
def all : List Access := [call, new, fieldAccess, methodRef]

/-- The word under which an access is written. -/
def name : Access → String
  | call => "Call"
  | new => "New"
  | fieldAccess => "FieldAccess"
  | methodRef => "MethodRef"

end Access

/-! ### Writing -/

/-- The value, or `null`. -/
def orNull {α : Type} (write : α → Value) : Option α → Value
  | some x => write x
  | none => .null

/-- A span as a JSON value. -/
def Span.toValue (s : Span) : Value :=
  .object [("start", .natural s.start.toNat), ("end", .natural s.stop.toNat)]

/-- A tag as a JSON value. -/
def Tag.toValue (t : Tag) : Value := .string t.name

/-- A symbol as a JSON value. -/
def Symbol.toValue (s : Symbol) : Value := .string s.text

/-- An annotation as a JSON value. -/
def WrittenTag.toValue (a : WrittenTag) : Value :=
  .object [("tag", a.tag.toValue), ("ignore_parent", .boolean a.ignoreParent),
    ("span", a.span.toValue)]

/-- A use as a JSON value. -/
def Use.toValue (how : Use) (target : Option Symbol) (span : Span) : Value :=
  let context :=
    match how with
    | methodRef context => [("context", orNull Tag.toValue context)]
    | _ => []
  .object [(how.access.name,
    .object ([("target", orNull Symbol.toValue target)] ++ context ++ [("span", span.toValue)]))]

mutual

/-- A type as a JSON value. -/
def TypeDef.toValue : TypeDef → Value
  | { name, tag, members, span } =>
    .object [("name", .string name), ("tag", orNull WrittenTag.toValue tag),
      ("members", .list (memberValues members)), ("span", span.toValue)]

/-- Members as JSON values. -/
def memberValues : List Member → List Value
  | [] => []
  | m :: ms => m.toValue :: memberValues ms

/-- A member as a JSON value. -/
def Member.toValue : Member → Value
  | { symbol, kind, visibility, tag, overrides, body, span } =>
    .object [("symbol", symbol.toValue), ("kind", .string kind.name),
      ("visibility", .string visibility.name), ("tag", orNull WrittenTag.toValue tag),
      ("overrides", .list (overrides.map Symbol.toValue)), ("body", .list (bodyValues body)),
      ("span", span.toValue)]

/-- Expressions as JSON values. -/
def bodyValues : List Expr → List Value
  | [] => []
  | e :: es => e.toValue :: bodyValues es

/-- An expression as a JSON value. -/
def Expr.toValue : Expr → Value
  | .use how target span => how.toValue target span
  | .lambda context body span =>
    .object [("Lambda", .object [("context", orNull Tag.toValue context),
      ("body", .list (bodyValues body)), ("span", span.toValue)])]
  | .anonymous type => .object [("AnonymousClass", type.toValue)]
  | .block body => .object [("Block", .list (bodyValues body))]

end

/-- A source file as a JSON value. -/
def SourceUnit.toValue (u : SourceUnit) : Value :=
  .object [("path", .string u.path), ("package", .string u.package),
    ("types", .list (u.types.map TypeDef.toValue))]

/-- The document of a source file. -/
def SourceUnit.toText (u : SourceUnit) : String := u.toValue.text

/-! ### Reading the small parts -/

/-- A field that a record cannot do without. -/
def needed {α : Type} (form : Form) (title : Title) (field : String) (index : Nat) :
    Option α → Except Fault α
  | some x => .ok x
  | none => .error (form.lacks title field index)

/-- Reads a tag. -/
def Tag.read (room : Nat) : Reading Tag := oneOf (0 < room) Tag.name Tag.all

/-- Reads a symbol. -/
def Symbol.read : Reading Symbol := return ⟨← Json.text "a string"⟩

/-- Reads a list of texts. -/
def readTexts (room : Nat) : Reading (List String) :=
  Json.list (if 0 < room then some (text "a string") else none)

/-- Reads a kind of member. -/
def MemberKind.read (room : Nat) : Reading MemberKind :=
  oneOf (0 < room) MemberKind.name MemberKind.all

/-- Reads a visibility. -/
def Visibility.read (room : Nat) : Reading Visibility :=
  oneOf (0 < room) Visibility.name Visibility.all

/-- Reads a list of symbols. -/
def Symbol.readList (room : Nat) : Reading (List Symbol) :=
  Json.list (if 0 < room then some Symbol.read else none)

/-- A span of which some fields have been read. -/
structure SpanDraft where
  start : Option UInt64 := none
  stop : Option UInt64 := none

namespace SpanDraft

/-- What messages call a span. -/
def title : Title := ⟨"struct Span", 2⟩

/-- The fields of a span. -/
def fields : List (RecordField SpanDraft) :=
  [⟨"start", fun d => return { d with start := some (← natural) }⟩,
    ⟨"end", fun d => return { d with stop := some (← natural) }⟩]

/-- The span, once both ends are known. -/
def finish (form : Form) (d : SpanDraft) : Except Fault Span := do
  return ⟨← needed form title "start" 0 d.start, ← needed form title "end" 1 d.stop⟩

end SpanDraft

/-- Reads a span. -/
def Span.read (room : Nat) : Reading Span :=
  record SpanDraft.title (if 0 < room then some SpanDraft.fields else none) {} SpanDraft.finish

/-- An annotation of which some fields have been read. -/
structure WrittenTagDraft where
  tag : Option Tag := none
  ignoreParent : Option Bool := none
  span : Option Span := none

namespace WrittenTagDraft

/-- What messages call an annotation. -/
def title : Title := ⟨"struct TagAnnotation", 3⟩

/-- The fields of an annotation. -/
def fields (room : Nat) : List (RecordField WrittenTagDraft) :=
  [⟨"tag", fun d => return { d with tag := some (← Tag.read room) }⟩,
    ⟨"ignore_parent", fun d => return { d with ignoreParent := some (← flag) }⟩,
    ⟨"span", fun d => return { d with span := some (← Span.read room) }⟩]

/-- The annotation, once its tag is known. -/
def finish (form : Form) (d : WrittenTagDraft) : Except Fault WrittenTag := do
  return ⟨← needed form title "tag" 0 d.tag, d.ignoreParent.getD false, d.span.getD {}⟩

end WrittenTagDraft

/-- Reads an annotation. -/
def WrittenTag.read : (room : Nat) → Reading WrittenTag
  | 0 => record WrittenTagDraft.title none {} WrittenTagDraft.finish
  | room + 1 =>
    record WrittenTagDraft.title (some (WrittenTagDraft.fields room)) {} WrittenTagDraft.finish

/-! ### Reading expressions, members and types -/

/-- The content of a use of which some fields have been read. -/
structure UseDraft where
  target : Option (Option Symbol) := none
  context : Option (Option Tag) := none
  span : Option Span := none

namespace UseDraft

/-- What messages call the content of a use. -/
def title (access : Access) : Title :=
  ⟨"struct variant Expr::" ++ access.name, if access = .methodRef then 3 else 2⟩

/-- The fields of a use; only a method reference has a context. -/
def fields (access : Access) (room : Nat) : List (RecordField UseDraft) :=
  let target : RecordField UseDraft :=
    ⟨"target", fun d => return { d with target := some (← optional Symbol.read) }⟩
  let context : RecordField UseDraft :=
    ⟨"context", fun d => return { d with context := some (← optional (Tag.read room)) }⟩
  let span : RecordField UseDraft :=
    ⟨"span", fun d => return { d with span := some (← Span.read room) }⟩
  if access = .methodRef then [target, context, span] else [target, span]

/-- The use of an access, with the context that the draft holds. -/
def use (access : Access) (d : UseDraft) : Use :=
  match access with
  | .call => .call
  | .new => .new
  | .fieldAccess => .fieldAccess
  | .methodRef => .methodRef (d.context.getD none)

/-- The target; an object may leave it out. -/
def targetIn (form : Form) (access : Access) (d : UseDraft) : Except Fault (Option Symbol) :=
  match form with
  | .object => .ok (d.target.getD none)
  | .list => needed form (title access) "target" 0 d.target

/-- The expression, once its span is known. -/
def finish (access : Access) (form : Form) (d : UseDraft) : Except Fault Expr := do
  let target ← d.targetIn form access
  let index := if access = .methodRef then 2 else 1
  return .use (d.use access) target (← needed form (title access) "span" index d.span)

end UseDraft

/-- Reads the content of a use. -/
def Use.read (access : Access) : (room : Nat) → Reading Expr
  | 0 => record (UseDraft.title access) none {} (UseDraft.finish access)
  | room + 1 =>
    record (UseDraft.title access) (some (UseDraft.fields access room)) {}
      (UseDraft.finish access)

/-- The content of a lambda of which some fields have been read. -/
structure LambdaDraft where
  context : Option (Option Tag) := none
  body : Option (List Expr) := none
  span : Option Span := none

namespace LambdaDraft

/-- What messages call the content of a lambda. -/
def title : Title := ⟨"struct variant Expr::Lambda", 3⟩

/-- The fields of a lambda, given how its body is read. -/
def fields (room : Nat) (body : Reading (List Expr)) : List (RecordField LambdaDraft) :=
  [⟨"context", fun d => return { d with context := some (← optional (Tag.read room)) }⟩,
    ⟨"body", fun d => return { d with body := some (← body) }⟩,
    ⟨"span", fun d => return { d with span := some (← Span.read room) }⟩]

/-- The lambda, once its body and span are known. -/
def finish (form : Form) (d : LambdaDraft) : Except Fault Expr := do
  let body ← needed form title "body" 1 d.body
  return .lambda (d.context.getD none) body (← needed form title "span" 2 d.span)

end LambdaDraft

/-- A type of which some fields have been read. -/
structure TypeDraft where
  name : Option String := none
  tag : Option (Option WrittenTag) := none
  members : Option (List Member) := none
  span : Option Span := none

namespace TypeDraft

/-- What messages call a type. -/
def title : Title := ⟨"struct TypeDecl", 4⟩

/-- The fields of a type, given how its members are read. -/
def fields (room : Nat) (members : Reading (List Member)) : List (RecordField TypeDraft) :=
  [⟨"name", fun d => return { d with name := some (← text "a string") }⟩,
    ⟨"tag", fun d => return { d with tag := some (← optional (WrittenTag.read room)) }⟩,
    ⟨"members", fun d => return { d with members := some (← members) }⟩,
    ⟨"span", fun d => return { d with span := some (← Span.read room) }⟩]

/-- The type, once its name is known. -/
def finish (form : Form) (d : TypeDraft) : Except Fault TypeDef := do
  let name ← needed form title "name" 0 d.name
  return { name, tag := d.tag.getD none, members := d.members.getD [], span := d.span.getD {} }

end TypeDraft

/-- A member of which some fields have been read. -/
structure MemberDraft where
  symbol : Option Symbol := none
  kind : Option MemberKind := none
  visibility : Option Visibility := none
  tag : Option (Option WrittenTag) := none
  overrides : Option (List Symbol) := none
  body : Option (List Expr) := none
  span : Option Span := none

namespace MemberDraft

/-- What messages call a member. -/
def title : Title := ⟨"struct Member", 7⟩

/-- The fields of a member, given how its body is read. -/
def fields (room : Nat) (body : Reading (List Expr)) : List (RecordField MemberDraft) :=
  [⟨"symbol", fun d => return { d with symbol := some (← Symbol.read) }⟩,
    ⟨"kind", fun d => return { d with kind := some (← MemberKind.read room) }⟩,
    ⟨"visibility", fun d => return { d with visibility := some (← Visibility.read room) }⟩,
    ⟨"tag", fun d => return { d with tag := some (← optional (WrittenTag.read room)) }⟩,
    ⟨"overrides", fun d => return { d with overrides := some (← Symbol.readList room) }⟩,
    ⟨"body", fun d => return { d with body := some (← body) }⟩,
    ⟨"span", fun d => return { d with span := some (← Span.read room) }⟩]

/-- The member, once its symbol and kind are known. -/
def finish (form : Form) (d : MemberDraft) : Except Fault Member := do
  let symbol ← needed form title "symbol" 0 d.symbol
  let kind ← needed form title "kind" 1 d.kind
  return { symbol, kind, visibility := d.visibility.getD .pub, tag := d.tag.getD none,
           overrides := d.overrides.getD [], body := d.body.getD [], span := d.span.getD {} }

end MemberDraft

/-- The names under which expressions are written. -/
inductive ExprCase where
  | use (access : Access)
  | lambda
  | anonymous
  | block
deriving DecidableEq, Repr

namespace ExprCase

/-- Every case of an expression. -/
def all : List ExprCase := Access.all.map use ++ [lambda, anonymous, block]

/-- The word under which a case is written. -/
def name : ExprCase → String
  | use access => access.name
  | lambda => "Lambda"
  | anonymous => "AnonymousClass"
  | block => "Block"

/-- What is missing when a case is written without its content. -/
def content : ExprCase → String
  | use _ | lambda => "struct variant"
  | anonymous | block => "newtype variant"

/-- The cases as alternatives, given how the content of each is read. -/
def choices (read : ExprCase → Reading Expr) : List (Choice Expr) :=
  all.map fun c => ⟨c.name, failPending (.invalidType .bareName c.content), read c⟩

end ExprCase

mutual

/-- Reads an expression. -/
def Expr.read : (room : Nat) → Reading Expr
  | 0 => alternative false (ExprCase.choices fun _ => failPeek .nestedTooDeep)
  | room + 1 =>
    alternative true (ExprCase.choices fun
      | .use access => Use.read access room
      | .lambda => Expr.readLambda room
      | .anonymous => return .anonymous (← TypeDef.read room)
      | .block => return .block (← Expr.readBody room))

/-- Reads the content of a lambda. -/
def Expr.readLambda : (room : Nat) → Reading Expr
  | 0 => record LambdaDraft.title none {} LambdaDraft.finish
  | room + 1 =>
    record LambdaDraft.title (some (LambdaDraft.fields room (Expr.readBody room))) {}
      LambdaDraft.finish

/-- Reads a list of expressions. -/
def Expr.readBody : (room : Nat) → Reading (List Expr)
  | 0 => Json.list none
  | room + 1 => Json.list (some (Expr.read room))

/-- Reads a type. -/
def TypeDef.read : (room : Nat) → Reading TypeDef
  | 0 => record TypeDraft.title none {} TypeDraft.finish
  | room + 1 =>
    record TypeDraft.title (some (TypeDraft.fields room (Member.readList room))) {} TypeDraft.finish

/-- Reads a list of members. -/
def Member.readList : (room : Nat) → Reading (List Member)
  | 0 => Json.list none
  | room + 1 => Json.list (some (Member.read room))

/-- Reads a member. -/
def Member.read : (room : Nat) → Reading Member
  | 0 => record MemberDraft.title none {} MemberDraft.finish
  | room + 1 =>
    record MemberDraft.title (some (MemberDraft.fields room (Expr.readBody room))) {}
      MemberDraft.finish

end

/-! ### Reading source files -/

/-- Reads a list of types. -/
def TypeDef.readList : (room : Nat) → Reading (List TypeDef)
  | 0 => Json.list none
  | room + 1 => Json.list (some (TypeDef.read room))

/-- A source file of which some fields have been read. -/
structure UnitDraft where
  path : Option String := none
  package : Option String := none
  types : Option (List TypeDef) := none

namespace UnitDraft

/-- What messages call a source file. -/
def title : Title := ⟨"struct CompilationUnit", 3⟩

/-- The fields of a source file. -/
def fields (room : Nat) : List (RecordField UnitDraft) :=
  [⟨"path", fun d => return { d with path := some (← text "a string") }⟩,
    ⟨"package", fun d => return { d with package := some (← text "a string") }⟩,
    ⟨"types", fun d => return { d with types := some (← TypeDef.readList room) }⟩]

/-- The source file, once its path and types are known. -/
def finish (form : Form) (d : UnitDraft) : Except Fault SourceUnit := do
  let path ← needed form title "path" 0 d.path
  return ⟨path, d.package.getD "", ← needed form title "types" 2 d.types⟩

end UnitDraft

/-- Reads a source file. -/
def SourceUnit.read : (room : Nat) → Reading SourceUnit
  | 0 => record UnitDraft.title none {} UnitDraft.finish
  | room + 1 => record UnitDraft.title (some (UnitDraft.fields room)) {} UnitDraft.finish

/-- The source file of a document. -/
def SourceUnit.ofText (s : String) : Except Failure SourceUnit :=
  document (SourceUnit.read nestingLimit) s

end ThreadAffinity
