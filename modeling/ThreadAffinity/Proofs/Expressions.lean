import ThreadAffinity.Proofs.Places

/-!
What the walk records of expressions.

The expressions of a file are listed here in reading order, each with its place and one before those
inside it, whether or not a type around it is left out (`SourceUnit.placedExprs`). The walk records a
call site for every use and an entry for every lambda, in the order of the listing, as long as no
type left out stands around. It records nothing of blocks and anonymous classes. So the call sites
and the lambdas of a file can be read off the listing, and what each of them says off its place
(`SourceUnit.sites_lambdas_of_exprs`). -/

namespace ThreadAffinity

/-- The expression, if the item is one. -/
def PlacedItem.expr? : PlacedItem → Option PlacedExpr
  | member _ => none
  | expr n => some n

/-- Every expression in a file, in reading order. -/
def SourceUnit.placedExprs (u : SourceUnit) : List PlacedExpr := u.items.filterMap PlacedItem.expr?

/-- The expressions that no type left out stands around. -/
def SourceUnit.visibleExprs (x : Exclusions) (u : SourceUnit) : List PlacedExpr :=
  u.placedExprs.filter (·.place.visible x)

theorem PlacedItem.place_of_expr? (i : PlacedItem) (n : PlacedExpr) (h : i.expr? = some n) :
    n.place = i.place := by
  cases i <;> cases h
  rfl

namespace SourceUnit

variable (u : SourceUnit) (x : Exclusions) (declared : TagMap)

/-- A walk through a file records one call site for each use and one entry for each lambda, in
reading order, outer expressions before inner ones, and of those only that no type left out stands
around. The caller at a site is the innermost member, an anonymous class's like any other, and a
lambda counts only if it stands inside that member. The tag in force is read from the inside out,
past blocks, lambdas without a tag of their own, and members of anonymous classes without a declared
one. -/
theorem sites_lambdas_of_exprs (advise : Bool) :
    (u.effectiveTags x declared advise).sites =
        (u.visibleExprs x).filterMap (PlacedExpr.site? declared) ∧
      (u.effectiveTags x declared advise).lambdas =
        (u.visibleExprs x).filterMap (PlacedExpr.lambda? declared) := by
  constructor
  · refine u.filterMap_visits x PlacedItem.place_of_expr? fun i => ?_
    cases i with
    | member n => exact n.site?_visit declared
    | expr n => exact n.record?_bind_site? declared
  · refine u.filterMap_visits x PlacedItem.place_of_expr? fun i => ?_
    cases i with
    | member n => exact n.lambda?_visit declared
    | expr n => exact n.record?_bind_lambda? declared

/-- A menu that does its work in the background, where an anonymous class has a method with a
lambda in it. -/
def menu : SourceUnit where
  path := "Menu.java"
  types := [{ name := "app.Menu", members := [
    { symbol := ⟨"app.Menu#open()"⟩, kind := .method, body := [
      .lambda (some .worker) [.block [.anonymous { name := "app.Menu$1", members := [
        { symbol := ⟨"app.Menu$1#run()"⟩, kind := .method, body := [
          .lambda none [.use .call (some ⟨"lib.Log#add()"⟩) ⟨40, 50⟩] ⟨30, 60⟩] }] }]] ⟨10, 80⟩] }] }]

/-- The tag in force at the call comes from the outer lambda, and the caller is the inner method. -/
example : (menu.effectiveTags {} {} true).sites =
    [⟨⟨⟨"app.Menu$1#run()"⟩, true⟩, .worker, some ⟨"lib.Log#add()"⟩, .call, ⟨40, 50⟩⟩] := by
  decide

end SourceUnit

end ThreadAffinity
