import Mathlib.Data.List.Basic
import ThreadAffinity.Effective

/-!
Where things stand in a file.

The walk carries the tag in force down into a file. Here things are taken the other way round: a
member or an expression has a place, the place lists what stands around it, innermost first, and the
tag in force is read off the place (`Place.tag`). Every member and every expression in the syntax is
listed once, in reading order and one before those inside it, whether or not the walk goes there
(`SourceUnit.items`). The walk turns out to come to exactly those that no type left out stands
around, and what it makes of each is what its place says (`SourceUnit.visits_eq`). Listings of some
of the items, such as the members, are cut out of the one listing, and what the walk has to say of
them follows (`SourceUnit.filterMap_visits`). -/

namespace ThreadAffinity

/-- What stands around a body, innermost first. -/
inductive Place where
  /-- A member of a top-level type. -/
  | topLevel (type : String) (member : Symbol)
  /-- A member of an anonymous class, which itself stands at `around`. -/
  | nested (type : String) (member : Symbol) (around : Place)
  /-- A lambda, and the tag of its functional interface. -/
  | lambda (context : Option Tag) (around : Place)
deriving DecidableEq, Repr

namespace Place

/-- The innermost member. -/
def member : Place → Symbol
  | topLevel _ s => s
  | nested _ s _ => s
  | lambda _ around => around.member

/-- Whether a lambda stands inside the innermost member. -/
def inLambda : Place → Bool
  | lambda _ _ => true
  | _ => false

/-- Who makes the calls here. -/
def caller (p : Place) : Caller := ⟨p.member, p.inLambda⟩

/-- The tag in force: that of the nearest lambda with one inside the innermost member, else that
member's declared tag, else, in an anonymous class, the tag in force around it. -/
def tag (declared : TagMap) : Place → Tag
  | lambda (some t) _ => t
  | lambda none around => around.tag declared
  | topLevel _ s => ((declared.get? s).map SourcedTag.tag).getD .any
  | nested _ s around => ((declared.get? s).map SourcedTag.tag).getD (around.tag declared)

/-- Whether no type that stands around is left out. -/
def visible (x : Exclusions) : Place → Bool
  | topLevel type _ => !x.covers type
  | nested type _ around => !x.covers type && around.visible x
  | lambda _ around => around.visible x

/-- The scope that the walk has here. -/
def scope (declared : TagMap) (p : Place) : Scope := ⟨p.member, p.tag declared, p.inLambda⟩

variable (declared : TagMap)

theorem scope_lambda (context : Option Tag) (p : Place) :
    (lambda context p).scope declared =
      (p.scope declared).inside ((p.scope declared).lambdaTag context) := by
  cases context <;> rfl

theorem scope_nested (type : String) (s : Symbol) (p : Place) :
    (nested type s p).scope declared = .ofMember s (nestedTag declared (p.tag declared) s).tag := by
  unfold nestedTag
  simp only [scope, Scope.ofMember, member, inLambda, tag]
  cases declared.get? s <;> rfl

theorem scope_topLevel (type : String) (s : Symbol) :
    (topLevel type s).scope declared = .ofMember s (topLevelTag declared s).tag := by
  unfold topLevelTag
  simp only [scope, Scope.ofMember, member, inLambda, tag]
  cases declared.get? s <;> rfl

end Place

/-- A member, and its place. -/
structure PlacedMember where
  place : Place
  member : Member

namespace PlacedMember

/-- The member's symbol. -/
def symbol (n : PlacedMember) : Symbol := n.member.symbol

/-- Whether the member belongs to a top-level type. -/
def isTopLevel (n : PlacedMember) : Bool :=
  match n.place with
  | .topLevel .. => true
  | _ => false

/-- The tag that a member has without a declared one: in an anonymous class the tag in force at the
class, else the universal one. -/
def fallback (declared : TagMap) (n : PlacedMember) : SourcedTag :=
  match n.place with
  | .nested _ _ around => ⟨around.tag declared, .enclosing⟩
  | _ => ⟨.any, .assumed⟩

/-- The member's tag: its declared one if there is one. -/
def tag (declared : TagMap) (n : PlacedMember) : SourcedTag :=
  (declared.get? n.symbol).getD (n.fallback declared)

/-- What the walk makes of the member. -/
def visit (declared : TagMap) (n : PlacedMember) : Visit :=
  if n.isTopLevel then .topLevel n.member (n.tag declared) else .nested n.member (n.tag declared)

variable (declared : TagMap) (n : PlacedMember)

theorem site?_visit : (n.visit declared).site? = none := by
  unfold visit
  split <;> rfl

theorem lambda?_visit : (n.visit declared).lambda? = none := by
  unfold visit
  split <;> rfl

end PlacedMember

/-- An expression, and its place. -/
structure PlacedExpr where
  place : Place
  expr : Expr

namespace PlacedExpr

/-- The call site of a use: the innermost member makes it, perhaps from inside a lambda, and the tag
in force counts, unless a method reference brings its own. -/
def site? (declared : TagMap) (n : PlacedExpr) : Option CallSite :=
  match n.expr with
  | .use how target span =>
    some ⟨n.place.caller, how.context.getD (n.place.tag declared), target, how.access, span⟩
  | _ => none

/-- The entry of a lambda: the tag of its functional interface, else the one in force around it. -/
def lambda? (declared : TagMap) (n : PlacedExpr) : Option LambdaBody :=
  match n.expr with
  | .lambda (some tag) _ span => some ⟨span, ⟨tag, .context⟩⟩
  | .lambda none _ span => some ⟨span, ⟨n.place.tag declared, .enclosing⟩⟩
  | _ => none

/-- What is recorded of the expression. -/
def record? (declared : TagMap) (n : PlacedExpr) : Option Visit :=
  ((n.site? declared).map Visit.site).or ((n.lambda? declared).map Visit.lambda)

variable (declared : TagMap)

theorem record?_lambda (context : Option Tag) (body : List Expr) (span : Span) (p : Place) :
    record? declared ⟨p, .lambda context body span⟩ =
      some (.lambda ⟨span, (p.scope declared).lambdaTag context⟩) := by
  cases context <;> rfl

theorem record?_bind_site? (n : PlacedExpr) :
    (n.record? declared).bind Visit.site? = n.site? declared := by
  rcases n with ⟨p, _ | ⟨_ | _, _, _⟩ | _ | _⟩ <;> rfl

theorem record?_bind_lambda? (n : PlacedExpr) :
    (n.record? declared).bind Visit.lambda? = n.lambda? declared := by
  rcases n with ⟨p, _ | ⟨_ | _, _, _⟩ | _ | _⟩ <;> rfl

end PlacedExpr

/-- A member or an expression, and its place. -/
inductive PlacedItem where
  | member (n : PlacedMember)
  | expr (n : PlacedExpr)

namespace PlacedItem

/-- Where the item stands. -/
def place : PlacedItem → Place
  | member n => n.place
  | expr n => n.place

/-- What the walk makes of the item: nothing of blocks and anonymous classes. -/
def visit? (declared : TagMap) : PlacedItem → Option Visit
  | member n => some (n.visit declared)
  | expr n => n.record? declared

end PlacedItem

mutual

/-- An expression that stands at the place, and what is inside it. -/
def Expr.items (p : Place) : Expr → List PlacedItem
  | e@(.use ..) => [.expr ⟨p, e⟩]
  | e@(.lambda context body _) => .expr ⟨p, e⟩ :: bodyItems (.lambda context p) body
  | e@(.anonymous type) => .expr ⟨p, e⟩ :: type.nestedItems p
  | e@(.block body) => .expr ⟨p, e⟩ :: bodyItems p body

/-- What is in a body. -/
def bodyItems (p : Place) : List Expr → List PlacedItem
  | [] => []
  | e :: es => e.items p ++ bodyItems p es

/-- What is in an anonymous class. -/
def TypeDef.nestedItems (p : Place) : TypeDef → List PlacedItem
  | { name, members, .. } => nestedMemberItems p name members

/-- The members of an anonymous class, and what is in their bodies. -/
def nestedMemberItems (p : Place) (type : String) : List Member → List PlacedItem
  | [] => []
  | m :: ms => m.nestedItems p type ++ nestedMemberItems p type ms

/-- A member of an anonymous class, and what is in its body. -/
def Member.nestedItems (p : Place) (type : String) : Member → List PlacedItem
  | m@{ symbol, body, .. } =>
    .member ⟨.nested type symbol p, m⟩ :: bodyItems (.nested type symbol p) body

end

/-- A member of a top-level type, and what is in its body. -/
def Member.items (type : String) (m : Member) : List PlacedItem :=
  .member ⟨.topLevel type m.symbol, m⟩ :: bodyItems (.topLevel type m.symbol) m.body

/-- What is in a top-level type. -/
def TypeDef.items (t : TypeDef) : List PlacedItem := t.members.flatMap (·.items t.name)

/-- Every member and every expression in a file, in reading order. -/
def SourceUnit.items (u : SourceUnit) : List PlacedItem := u.types.flatMap TypeDef.items

/-! ### The walk comes to the items -/

section Walk

variable (x : Exclusions) (declared : TagMap)

/-- What the walk is expected to make of some items: nothing where a type left out stands around. -/
def expectedVisits (is : List PlacedItem) : List Visit :=
  (is.filter (·.place.visible x)).filterMap (·.visit? declared)

@[simp]
theorem expectedVisits_append (is js : List PlacedItem) :
    expectedVisits x declared (is ++ js) =
      expectedVisits x declared is ++ expectedVisits x declared js := by
  simp [expectedVisits]

theorem expectedVisits_cons (i : PlacedItem) (is : List PlacedItem) :
    expectedVisits x declared (i :: is) =
      (if i.place.visible x then (i.visit? declared).toList else []) ++
        expectedVisits x declared is := by
  unfold expectedVisits
  rw [List.filter_cons]
  split
  · rw [List.filterMap_cons]
    cases i.visit? declared <;> rfl
  · rfl

mutual

theorem Expr.expectedVisits_items (p : Place) : ∀ e : Expr,
    expectedVisits x declared (e.items p) =
      if p.visible x then e.visits x declared (p.scope declared) else []
  | .use how target span => by
    rw [Expr.items, expectedVisits_cons, Expr.visits]
    change (if p.visible x then _ else _) ++ [] = _
    split <;> rfl
  | .lambda context body span => by
    rw [Expr.items, expectedVisits_cons, PlacedItem.visit?, PlacedExpr.record?_lambda,
      expectedVisits_bodyItems, Place.scope_lambda, Expr.visits]
    change (if p.visible x then _ else _) ++ (if p.visible x then _ else _) = _
    split <;> rfl
  | .anonymous type => by
    rw [Expr.items, expectedVisits_cons, type.expectedVisits_nestedItems, Expr.visits]
    change (if p.visible x then _ else _) ++ _ = _
    split <;> rfl
  | .block body => by
    rw [Expr.items, expectedVisits_cons, expectedVisits_bodyItems, Expr.visits]
    change (if p.visible x then _ else _) ++ _ = _
    split <;> rfl

theorem expectedVisits_bodyItems (p : Place) : ∀ es : List Expr,
    expectedVisits x declared (bodyItems p es) =
      if p.visible x then bodyVisits x declared (p.scope declared) es else []
  | [] => by
    rw [bodyItems, bodyVisits]
    exact (ite_self _).symm
  | e :: es => by
    rw [bodyItems, expectedVisits_append, e.expectedVisits_items, expectedVisits_bodyItems p es,
      bodyVisits]
    split <;> rfl

theorem TypeDef.expectedVisits_nestedItems (p : Place) : ∀ t : TypeDef,
    expectedVisits x declared (t.nestedItems p) =
      if p.visible x then t.nestedVisits x declared (p.tag declared) else []
  | { name, members, .. } => by
    rw [TypeDef.nestedItems, expectedVisits_nestedMemberItems, TypeDef.nestedVisits]
    cases x.covers name with
    | true => exact (ite_self _).symm
    | false => rfl

theorem expectedVisits_nestedMemberItems (p : Place) (type : String) : ∀ ms : List Member,
    expectedVisits x declared (nestedMemberItems p type ms) =
      if !x.covers type && p.visible x then
        nestedMemberVisits x declared (p.tag declared) ms else []
  | [] => by
    rw [nestedMemberItems, nestedMemberVisits]
    exact (ite_self _).symm
  | m :: ms => by
    rw [nestedMemberItems, expectedVisits_append, m.expectedVisits_nestedItems,
      expectedVisits_nestedMemberItems p type ms, nestedMemberVisits]
    split <;> rfl

theorem Member.expectedVisits_nestedItems (p : Place) (type : String) : ∀ m : Member,
    expectedVisits x declared (m.nestedItems p type) =
      if !x.covers type && p.visible x then m.nestedVisits x declared (p.tag declared) else []
  | { symbol, body, .. } => by
    rw [Member.nestedItems, expectedVisits_cons, expectedVisits_bodyItems, Place.scope_nested,
      Member.nestedVisits]
    change (if !x.covers type && p.visible x then _ else _) ++
      (if !x.covers type && p.visible x then _ else _) = _
    split <;> rfl

end

theorem Member.expectedVisits_items (type : String) (m : Member) :
    expectedVisits x declared (m.items type) =
      if x.covers type then [] else m.visits x declared := by
  rw [Member.items, expectedVisits_cons, expectedVisits_bodyItems, Place.scope_topLevel]
  change (if !x.covers type then _ else _) ++ (if !x.covers type then _ else _) = _
  cases x.covers type <;> rfl

theorem TypeDef.expectedVisits_items (t : TypeDef) :
    expectedVisits x declared t.items = t.visits x declared := by
  unfold items visits
  induction t.members with
  | nil => exact (ite_self _).symm
  | cons m ms ih =>
    rw [List.flatMap_cons, expectedVisits_append, m.expectedVisits_items, ih, List.flatMap_cons]
    split <;> rfl

end Walk

namespace SourceUnit

variable (u : SourceUnit) (x : Exclusions) (declared : TagMap)

/-- The walk through a file comes to its items, but for those that a type left out stands around. -/
theorem visits_eq : u.visits x declared = expectedVisits x declared u.items := by
  unfold visits items
  induction u.types with
  | nil => rfl
  | cons t ts ih =>
    rw [List.flatMap_cons, List.flatMap_cons, expectedVisits_append, t.expectedVisits_items, ih]

variable {α β : Type} {declared}

/-- Some items are picked out of the listing. What can be told of the walk by them alone can be told
of those of them that the walk goes to. -/
theorem filterMap_visits {pick : PlacedItem → Option α} {place : α → Place} {f : Visit → Option β}
    {g : α → Option β} (hplace : ∀ i n, pick i = some n → place n = i.place)
    (hpick : ∀ i, (i.visit? declared).bind f = (pick i).bind g) :
    (u.visits x declared).filterMap f =
      ((u.items.filterMap pick).filter fun n => (place n).visible x).filterMap g := by
  rw [visits_eq, expectedVisits, List.filterMap_filterMap, List.filterMap_filter,
    List.filterMap_filter, List.filterMap_filterMap]
  refine List.filterMap_congr fun i _ => ?_
  rw [hpick]
  cases hi : pick i with
  | none => exact ite_self _
  | some n => rw [Option.bind_some, Option.bind_some, hplace i n hi]

end SourceUnit

end ThreadAffinity
