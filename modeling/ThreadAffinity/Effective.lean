import ThreadAffinity.Event
import ThreadAffinity.Exclusions
import ThreadAffinity.Provenance

/-!
Effective tags: what every member and lambda of a file runs on.

One walk from the outside in finishes what annotations leave open. A lambda runs on the tag of its
functional interface, else on the tag around it. A member of an anonymous class without a declared
tag runs on the tag around the class. A top-level member without one is universal, and that is worth
an advisory. The walk also meets every call site, together with the tag in force there. -/

namespace ThreadAffinity

/-- A use of another declaration, ready to be checked. -/
structure CallSite where
  caller : Caller
  /-- The tag in force at the site. -/
  callerTag : Tag
  /-- Absent when the front end could not resolve it. -/
  target : Option Symbol
  access : Access
  span : Span
deriving DecidableEq, Repr

/-- A lambda, and the tag that it runs on. -/
structure LambdaBody where
  span : Span
  tag : SourcedTag
deriving DecidableEq, Repr

/-- Where a body stands. -/
structure Scope where
  /-- The innermost member around it. -/
  member : Symbol
  /-- The tag in force. -/
  tag : Tag
  /-- Whether a lambda lies between it and that member. -/
  inLambda : Bool
deriving DecidableEq, Repr

namespace Scope

/-- A call site in the scope. -/
def site (c : Scope) (how : Use) (target : Option Symbol) (span : Span) : CallSite :=
  ⟨⟨c.member, c.inLambda⟩, how.context.getD c.tag, target, how.access, span⟩

/-- The tag of a lambda in the scope. -/
def lambdaTag (c : Scope) : Option Tag → SourcedTag
  | some tag => ⟨tag, .context⟩
  | none => ⟨c.tag, .enclosing⟩

/-- The scope inside a lambda. -/
def inside (c : Scope) (tag : SourcedTag) : Scope := { c with tag := tag.tag, inLambda := true }

/-- The scope of a member's own body. -/
def ofMember (member : Symbol) (tag : Tag) : Scope := ⟨member, tag, false⟩

end Scope

/-- What the walk comes by. -/
inductive Visit where
  /-- A member of a top-level type, with its effective tag. -/
  | topLevel (member : Member) (tag : SourcedTag)
  /-- A member of an anonymous class, with its effective tag. -/
  | nested (member : Member) (tag : SourcedTag)
  | lambda (body : LambdaBody)
  | site (site : CallSite)

/-- The tag of a top-level member. -/
def topLevelTag (declared : TagMap) (s : Symbol) : SourcedTag :=
  (declared.get? s).getD ⟨.any, .assumed⟩

/-- The tag of a member of an anonymous class, where `around` is in force. -/
def nestedTag (declared : TagMap) (around : Tag) (s : Symbol) : SourcedTag :=
  (declared.get? s).getD ⟨around, .enclosing⟩

mutual

/-- The walk through an expression. -/
def Expr.visits (x : Exclusions) (declared : TagMap) (c : Scope) : Expr → List Visit
  | .use how target span => [.site (c.site how target span)]
  | .lambda context body span =>
    .lambda ⟨span, c.lambdaTag context⟩ ::
      bodyVisits x declared (c.inside (c.lambdaTag context)) body
  | .anonymous type => type.nestedVisits x declared c.tag
  | .block body => bodyVisits x declared c body

/-- The walk through a body. -/
def bodyVisits (x : Exclusions) (declared : TagMap) (c : Scope) : List Expr → List Visit
  | [] => []
  | e :: es => e.visits x declared c ++ bodyVisits x declared c es

/-- The walk through an anonymous class, where `around` is in force. -/
def TypeDef.nestedVisits (x : Exclusions) (declared : TagMap) (around : Tag) :
    TypeDef → List Visit
  | { name, members, .. } =>
    if x.covers name then [] else nestedMemberVisits x declared around members

/-- The walk through the members of an anonymous class. -/
def nestedMemberVisits (x : Exclusions) (declared : TagMap) (around : Tag) :
    List Member → List Visit
  | [] => []
  | m :: ms =>
    m.nestedVisits x declared around ++ nestedMemberVisits x declared around ms

/-- The walk through a member of an anonymous class. -/
def Member.nestedVisits (x : Exclusions) (declared : TagMap) (around : Tag) :
    Member → List Visit
  | m@{ symbol, body, .. } =>
    let tag := nestedTag declared around symbol
    .nested m tag :: bodyVisits x declared (.ofMember symbol tag.tag) body

end

/-- The walk through a member of a top-level type. -/
def Member.visits (x : Exclusions) (declared : TagMap) (m : Member) : List Visit :=
  let tag := topLevelTag declared m.symbol
  .topLevel m tag :: bodyVisits x declared (.ofMember m.symbol tag.tag) m.body

/-- The walk through a top-level type. -/
def TypeDef.visits (x : Exclusions) (declared : TagMap) (t : TypeDef) : List Visit :=
  if x.covers t.name then [] else t.members.flatMap (·.visits x declared)

/-- The walk through a file. -/
def SourceUnit.visits (x : Exclusions) (declared : TagMap) (u : SourceUnit) : List Visit :=
  u.types.flatMap (·.visits x declared)

namespace Visit

/-- The member that is met, and its tag. -/
def member? : Visit → Option (Member × SourcedTag)
  | topLevel m tag | nested m tag => some (m, tag)
  | _ => none

/-- The lambda that is met. -/
def lambda? : Visit → Option LambdaBody
  | lambda body => some body
  | _ => none

/-- The call site that is met. -/
def site? : Visit → Option CallSite
  | site s => some s
  | _ => none

/-- The advisory for a top-level member without a declared tag. -/
def advisory? (declared : TagMap) : Visit → Option Finding
  | topLevel m _ =>
    if declared.contains m.symbol then none else some ⟨.unannotated m.symbol, m.span⟩
  | _ => none

/-- The symbol that other files may refer to, if the member that is met is such a one. -/
def exported? : Visit → Option Symbol
  | topLevel m _ => if m.visibility.isExported then some m.symbol else none
  | _ => none

end Visit

/-- The effective tags of the members met: of several with one symbol the first counts. -/
def tagsOf (vs : List Visit) : TagMap :=
  (vs.filterMap Visit.member?).foldl (fun t m => t.putNew m.1.symbol m.2) .empty

/-- The symbols that other files may refer to: of several members with one symbol the first counts.
`seen` are the symbols already met. -/
def exportsOf : (seen : List Symbol) → List Visit → List Symbol
  | _, [] => []
  | seen, v :: vs =>
    match v.member? with
    | none => exportsOf seen vs
    | some (m, _) =>
      if seen.contains m.symbol then exportsOf seen vs
      else v.exported?.toList ++ exportsOf (m.symbol :: seen) vs

/-- What a walk through a file found out. -/
structure EffectiveTags where
  tags : TagMap
  /-- The symbols that other files may refer to, in order. -/
  exported : List Symbol
  lambdas : List LambdaBody
  sites : List CallSite
  findings : List Finding
  log : List Event

/-- The effective tags of a file, given its declared ones. -/
def SourceUnit.effectiveTags (u : SourceUnit) (x : Exclusions) (declared : TagMap)
    (advise : Bool) : EffectiveTags :=
  let vs := u.visits x declared
  let tags := tagsOf vs
  let lambdas := vs.filterMap Visit.lambda?
  let sites := vs.filterMap Visit.site?
  { tags, lambdas, sites
    exported := exportsOf [] vs
    findings := if advise then vs.filterMap (Visit.advisory? declared) else []
    log := [.effectiveInferred u.path tags.size lambdas.length sites.length] }

end ThreadAffinity
