import ThreadAffinity.Proofs.Abridging

/-!
Documents of source files are read back.

A document may show a source file in many ways: the fields of a record stand in any order, and one
that has its default may be left out. What a file is written as shows everything, and so does what
is left of it when it is abridged. Whatever shows a file is read back as that file, as long as it
nests no deeper than the limit; a deeper document is refused. -/

namespace ThreadAffinity

open Json

variable {room : Nat} {v : Value} {es : List (String × Value)}

/-! ### The small parts -/

/-- A value that shows something, or `null` for nothing. -/
def orNullShown {α : Type} (shown : α → Value → Prop) : Option α → Value → Prop
  | some x, v => v ≠ .null ∧ shown x v
  | none, v => v = .null

theorem decodes_orNullShown {α : Type} {shown : α → Value → Prop} {r : Reading α}
    (h : ∀ x v, shown x v → Decodes r room v x) :
    ∀ {o : Option α}, orNullShown shown o v → Decodes (optional r) room v o
  | some x, ⟨hv, hx⟩ => decodes_optional_some (h x v hx) hv
  | none, hv => hv ▸ decodes_optional_none

/-- A tag is shown by its name. -/
def Tag.ShownAs (t : Tag) (v : Value) : Prop := v = t.toValue

theorem Tag.decodes (t : Tag) (v : Value) (h : t.ShownAs v) : Decodes (Tag.read room) room v t :=
  h ▸ decodes_oneOf (by cases t <;> decide)

theorem MemberKind.decodes (k : MemberKind) :
    Decodes (MemberKind.read room) room (.string k.name) k :=
  decodes_oneOf (by cases k <;> decide)

theorem Visibility.decodes (w : Visibility) :
    Decodes (Visibility.read room) room (.string w.name) w :=
  decodes_oneOf (by cases w <;> decide)

/-- A symbol is shown by its text. -/
def Symbol.ShownAs (s : Symbol) (v : Value) : Prop := v = s.toValue

theorem Symbol.decodes (s : Symbol) (v : Value) (h : s.ShownAs v) :
    Decodes Symbol.read room v s :=
  h ▸ (decodes_text _ s.text).map Symbol.mk

theorem Symbol.decodes_list (ss : List Symbol) :
    Decodes (Symbol.readList room) room (.list (ss.map Symbol.toValue)) ss := by
  rcases room with _ | room
  · exact decodes_list_full
  · exact decodes_list_map (fun s => s.decodes _ rfl) ss

/-! ### Spans -/

namespace Span

/-- The fields of a span. -/
def slots (s : Span) : List Slot :=
  [{ key := "start", shown := (· = .natural s.start.toNat) },
    { key := "end", shown := (· = .natural s.stop.toNat) }]

/-- An object shows the span. -/
def ShownAs (s : Span) (v : Value) : Prop := ∃ es, v = .object es ∧ Shows s.slots es

/-- What is known of the span after some keys. -/
def draft (s : Span) (seen : List String) : SpanDraft :=
  ⟨known seen "start" s.start, known seen "end" s.stop⟩

theorem decodes (s : Span) (v : Value) (h : s.ShownAs v) : Decodes (Span.read room) room v s := by
  obtain ⟨es, rfl, h⟩ := h
  rcases room with _ | room
  · exact decodes_record_full
  refine decodes_shown s.draft h ?_ ?_
  · simp only [slots, List.forall_mem_cons]
    refine ⟨?_, ?_, by simp⟩
    · rintro _ rfl
      exact .of_decodes rfl (decodes_natural _) fun seen => by simp [draft]
    · rintro _ rfl
      exact .of_decodes rfl (decodes_natural _) fun seen => by simp [draft]
  · intro seen hseen
    simp only [slots, List.forall_mem_cons, or_false] at hseen
    simp only [SpanDraft.finish, draft, known_of_mem hseen.1, known_of_mem hseen.2.1, needed]
    rfl

end Span

/-! ### Annotations -/

namespace WrittenTag

/-- The fields of an annotation. -/
def slots (a : WrittenTag) : List Slot :=
  [{ key := "tag", shown := a.tag.ShownAs },
    { key := "ignore_parent", shown := (· = .boolean a.ignoreParent),
      isDefault := a.ignoreParent = false },
    { key := "span", shown := a.span.ShownAs, isDefault := a.span = {} }]

/-- An object shows the annotation. -/
def ShownAs (a : WrittenTag) (v : Value) : Prop := ∃ es, v = .object es ∧ Shows a.slots es

/-- What is known of the annotation after some keys. -/
def draft (a : WrittenTag) (seen : List String) : WrittenTagDraft :=
  ⟨known seen "tag" a.tag, known seen "ignore_parent" a.ignoreParent, known seen "span" a.span⟩

theorem decodes (a : WrittenTag) (v : Value) (h : a.ShownAs v) :
    Decodes (WrittenTag.read room) room v a := by
  obtain ⟨es, rfl, h⟩ := h
  rcases room with _ | room
  · rw [WrittenTag.read]
    exact decodes_record_full
  refine decodes_shown a.draft h ?_ ?_
  · simp only [slots, List.forall_mem_cons]
    refine ⟨fun v hv => ?_, fun v hv => ?_, fun v hv => ?_, by simp⟩
    · exact .of_decodes rfl (a.tag.decodes v hv) fun seen => by simp [draft]
    · exact .of_decodes rfl (hv ▸ decodes_flag _) fun seen => by simp [draft]
    · exact .of_decodes rfl (a.span.decodes v hv) fun seen => by simp [draft]
  · intro seen hseen
    simp only [slots, List.forall_mem_cons, or_false] at hseen
    obtain ⟨htag, hignore, hspan, -⟩ := hseen
    simp only [WrittenTagDraft.finish, draft, known_of_mem htag, known_getD hignore,
      known_getD hspan, needed]
    rfl

end WrittenTag

/-! ### Uses -/

namespace Use

/-- The fields of a use. Only a method reference has a context. -/
def slots (how : Use) (target : Option Symbol) (span : Span) : List Slot :=
  let context : List Slot :=
    match how with
    | methodRef context =>
      [{ key := "context", shown := orNullShown Tag.ShownAs context, isDefault := context = none }]
    | _ => []
  [{ key := "target", shown := orNullShown Symbol.ShownAs target, isDefault := target = none }] ++
    context ++ [{ key := "span", shown := span.ShownAs }]

/-- What is known of the content of a use after some keys. -/
def draft (how : Use) (target : Option Symbol) (span : Span) (seen : List String) : UseDraft :=
  ⟨known seen "target" target, known seen "context" how.context, known seen "span" span⟩

theorem decodes (how : Use) (target : Option Symbol) (span : Span)
    (h : Shows (how.slots target span) es) :
    Decodes (Use.read how.access room) room (.object es) (.use how target span) := by
  rcases room with _ | room
  · rw [Use.read]
    exact decodes_record_full
  refine decodes_shown (how.draft target span) h ?_ ?_
  · have htarget : ∀ v, orNullShown Symbol.ShownAs target v →
        Fills (UseDraft.fields how.access room) room (how.draft target span) "target" v := by
      intro v hv
      cases how <;>
      · exact .of_decodes rfl (decodes_orNullShown Symbol.decodes hv) fun seen => by simp [draft]
    have hspan : ∀ v, span.ShownAs v →
        Fills (UseDraft.fields how.access room) room (how.draft target span) "span" v := by
      intro v hv
      cases how <;> exact .of_decodes rfl (span.decodes v hv) fun seen => by simp [draft]
    cases how with
    | methodRef context =>
      simp only [slots, List.cons_append, List.nil_append, List.forall_mem_cons]
      refine ⟨htarget, fun v hv => ?_, hspan, by simp⟩
      exact .of_decodes rfl (decodes_orNullShown Tag.decodes hv) fun seen => by
        simp [draft, Use.context]
    | call | new | fieldAccess =>
      simp only [slots, List.cons_append, List.nil_append, List.forall_mem_cons]
      exact ⟨htarget, hspan, by simp⟩
  · intro seen hseen
    have htarget : "target" ∈ seen ∨ target = none := hseen _ (.head _)
    have hspan : "span" ∈ seen :=
      (hseen { key := "span", shown := span.ShownAs } (by simp [slots])).resolve_right id
    have huse : (how.draft target span seen).use how.access = how := by
      cases how with
      | methodRef context =>
        have hcontext : "context" ∈ seen ∨ context = none := hseen _ (.tail _ (.head _))
        simp only [draft, Use.context, Use.access, UseDraft.use, known_getD hcontext]
      | call | new | fieldAccess => rfl
    simp only [UseDraft.finish, UseDraft.targetIn, huse]
    simp only [draft, known_getD htarget, known_of_mem hspan, needed]
    rfl

end Use

/-! ### Lambdas, types and members, given how their content is shown -/

/-- The fields of a lambda. -/
def lambdaSlots (context : Option Tag) (body : Value → Prop) (span : Span) : List Slot :=
  [{ key := "context", shown := orNullShown Tag.ShownAs context, isDefault := context = none },
    { key := "body", shown := body }, { key := "span", shown := span.ShownAs }]

/-- What is known of a lambda after some keys. -/
def lambdaDraft (context : Option Tag) (body : List Expr) (span : Span) (seen : List String) :
    LambdaDraft :=
  ⟨known seen "context" context, known seen "body" body, known seen "span" span⟩

theorem decodes_lambda {context : Option Tag} {body : List Expr} {span : Span}
    {shown : Value → Prop} {readBody : Reading (List Expr)}
    (h : Shows (lambdaSlots context shown span) es)
    (hbody : ∀ v, shown v → Decodes readBody room v body) :
    Decodes (record LambdaDraft.title (some (LambdaDraft.fields room readBody)) {}
      LambdaDraft.finish) (room + 1) (.object es) (.lambda context body span) := by
  refine decodes_shown (lambdaDraft context body span) h ?_ ?_
  · simp only [lambdaSlots, List.forall_mem_cons]
    refine ⟨fun v hv => ?_, fun v hv => ?_, fun v hv => ?_, by simp⟩
    · exact .of_decodes rfl (decodes_orNullShown Tag.decodes hv) fun seen => by simp [lambdaDraft]
    · exact .of_decodes rfl (hbody v hv) fun seen => by simp [lambdaDraft]
    · exact .of_decodes rfl (span.decodes v hv) fun seen => by simp [lambdaDraft]
  · intro seen hseen
    simp only [lambdaSlots, List.forall_mem_cons, or_false] at hseen
    obtain ⟨hcontext, hbody, hspan, -⟩ := hseen
    simp only [LambdaDraft.finish, lambdaDraft, known_getD hcontext, known_of_mem hbody,
      known_of_mem hspan, needed]
    rfl

namespace TypeDef

/-- The fields of a type. -/
def slots (t : TypeDef) (members : Value → Prop) : List Slot :=
  [{ key := "name", shown := (· = .string t.name) },
    { key := "tag", shown := orNullShown WrittenTag.ShownAs t.tag, isDefault := t.tag = none },
    { key := "members", shown := members, isDefault := t.members = [] },
    { key := "span", shown := t.span.ShownAs, isDefault := t.span = {} }]

/-- What is known of a type after some keys. -/
def draft (t : TypeDef) (seen : List String) : TypeDraft :=
  ⟨known seen "name" t.name, known seen "tag" t.tag, known seen "members" t.members,
    known seen "span" t.span⟩

theorem decodes_record {t : TypeDef} {shown : Value → Prop} {readMembers : Reading (List Member)}
    (h : Shows (t.slots shown) es) (hmembers : ∀ v, shown v → Decodes readMembers room v t.members) :
    Decodes (record TypeDraft.title (some (TypeDraft.fields room readMembers)) {} TypeDraft.finish)
      (room + 1) (.object es) t := by
  refine decodes_shown t.draft h ?_ ?_
  · simp only [slots, List.forall_mem_cons]
    refine ⟨fun v hv => ?_, fun v hv => ?_, fun v hv => ?_, fun v hv => ?_, by simp⟩
    · exact .of_decodes rfl (hv ▸ decodes_text _ t.name) fun seen => by simp [draft]
    · exact .of_decodes rfl (decodes_orNullShown WrittenTag.decodes hv) fun seen => by simp [draft]
    · exact .of_decodes rfl (hmembers v hv) fun seen => by simp [draft]
    · exact .of_decodes rfl (t.span.decodes v hv) fun seen => by simp [draft]
  · intro seen hseen
    simp only [slots, List.forall_mem_cons, or_false] at hseen
    obtain ⟨hname, htag, hmembers, hspan, -⟩ := hseen
    simp only [TypeDraft.finish, draft, known_of_mem hname, known_getD htag, known_getD hmembers,
      known_getD hspan, needed]
    cases t
    rfl

end TypeDef

namespace Member

/-- The fields of a member. -/
def slots (m : Member) (body : Value → Prop) : List Slot :=
  [{ key := "symbol", shown := m.symbol.ShownAs },
    { key := "kind", shown := (· = .string m.kind.name) },
    { key := "visibility", shown := (· = .string m.visibility.name),
      isDefault := m.visibility = .pub },
    { key := "tag", shown := orNullShown WrittenTag.ShownAs m.tag, isDefault := m.tag = none },
    { key := "overrides", shown := (· = .list (m.overrides.map Symbol.toValue)),
      isDefault := m.overrides = [] },
    { key := "body", shown := body, isDefault := m.body = [] },
    { key := "span", shown := m.span.ShownAs, isDefault := m.span = {} }]

/-- What is known of a member after some keys. -/
def draft (m : Member) (seen : List String) : MemberDraft :=
  ⟨known seen "symbol" m.symbol, known seen "kind" m.kind, known seen "visibility" m.visibility,
    known seen "tag" m.tag, known seen "overrides" m.overrides, known seen "body" m.body,
    known seen "span" m.span⟩

theorem decodes_record {m : Member} {shown : Value → Prop} {readBody : Reading (List Expr)}
    (h : Shows (m.slots shown) es) (hbody : ∀ v, shown v → Decodes readBody room v m.body) :
    Decodes (record MemberDraft.title (some (MemberDraft.fields room readBody)) {}
      MemberDraft.finish) (room + 1) (.object es) m := by
  refine decodes_shown m.draft h ?_ ?_
  · simp only [slots, List.forall_mem_cons]
    refine ⟨fun v hv => ?_, fun v hv => ?_, fun v hv => ?_, fun v hv => ?_, fun v hv => ?_,
      fun v hv => ?_, fun v hv => ?_, by simp⟩
    · exact .of_decodes rfl (m.symbol.decodes v hv) fun seen => by simp [draft]
    · exact .of_decodes rfl (hv ▸ m.kind.decodes) fun seen => by simp [draft]
    · exact .of_decodes rfl (hv ▸ m.visibility.decodes) fun seen => by simp [draft]
    · exact .of_decodes rfl (decodes_orNullShown WrittenTag.decodes hv) fun seen => by simp [draft]
    · exact .of_decodes rfl (hv ▸ Symbol.decodes_list m.overrides) fun seen => by simp [draft]
    · exact .of_decodes rfl (hbody v hv) fun seen => by simp [draft]
    · exact .of_decodes rfl (m.span.decodes v hv) fun seen => by simp [draft]
  · intro seen hseen
    simp only [slots, List.forall_mem_cons, or_false] at hseen
    obtain ⟨hsymbol, hkind, hvisibility, htag, hoverrides, hbody, hspan, -⟩ := hseen
    simp only [MemberDraft.finish, draft, known_of_mem hsymbol, known_of_mem hkind,
      known_getD hvisibility, known_getD htag, known_getD hoverrides, known_getD hbody,
      known_getD hspan, needed]
    cases m
    rfl

end Member

/-! ### Expressions, types and members -/

mutual

/-- A value shows the type. -/
def TypeDef.ShownAs : TypeDef → Value → Prop
  | { name, tag, members, span }, v =>
    ∃ es, v = .object es ∧ Shows (TypeDef.slots { name, tag, members, span }
      fun w => ∃ ws, w = .list ws ∧ membersShownAs members ws) es

/-- Values show the members, one by one. -/
def membersShownAs : List Member → List Value → Prop
  | [], ws => ws = []
  | m :: ms, ws => ∃ w ws', ws = w :: ws' ∧ m.ShownAs w ∧ membersShownAs ms ws'

/-- A value shows the member. -/
def Member.ShownAs : Member → Value → Prop
  | { symbol, kind, visibility, tag, overrides, body, span }, v =>
    ∃ es, v = .object es ∧ Shows
      (Member.slots { symbol, kind, visibility, tag, overrides, body, span }
        fun w => ∃ ws, w = .list ws ∧ bodyShownAs body ws) es

/-- Values show the expressions, one by one. -/
def bodyShownAs : List Expr → List Value → Prop
  | [], ws => ws = []
  | e :: es, ws => ∃ w ws', ws = w :: ws' ∧ e.ShownAs w ∧ bodyShownAs es ws'

/-- A value shows the expression: an object with its one alternative. -/
def Expr.ShownAs : Expr → Value → Prop
  | .use how target span, v =>
    ∃ es, v = .object [(how.access.name, .object es)] ∧ Shows (how.slots target span) es
  | .lambda context body span, v =>
    ∃ es, v = .object [("Lambda", .object es)] ∧
      Shows (lambdaSlots context (fun w => ∃ ws, w = .list ws ∧ bodyShownAs body ws) span) es
  | .anonymous type, v => ∃ w, v = .object [("AnonymousClass", w)] ∧ type.ShownAs w
  | .block body, v => ∃ ws, v = .object [("Block", .list ws)] ∧ bodyShownAs body ws

end

/-- The choices of an expression, found by their names. -/
theorem ExprCase.find?_choices (read : ExprCase → Reading Expr) (c : ExprCase) :
    (ExprCase.choices read).find? (·.name == c.name) =
      some ⟨c.name, failPending (.invalidType .bareName c.content), read c⟩ := by
  have found : ExprCase.all.find? (·.name == c.name) = some c := by
    cases c with
    | use access => cases access <;> decide
    | lambda | anonymous | block => decide
  rw [ExprCase.choices, List.find?_map]
  exact congrArg _ found

theorem decodes_case {read : ExprCase → Reading Expr} {e : Expr} (c : ExprCase)
    (h : Decodes (read c) room v e) :
    Decodes (alternative true (ExprCase.choices read)) (room + 1) (.object [(c.name, v)]) e :=
  decodes_alternative (c.find?_choices read) h

-- Each bracket takes one from the room and leads into a part of the tree: the induction is on both.
mutual

/-- What shows a type is read as that type. -/
theorem TypeDef.decodes : ∀ (t : TypeDef) {v : Value}, t.ShownAs v → ∀ room : Nat,
    Decodes (TypeDef.read room) room v t
  | { name, tag, members, span }, _, ⟨_, rfl, h⟩, 0 => by
    rw [TypeDef.read]
    exact decodes_record_full
  | { name, tag, members, span }, _, ⟨_, rfl, h⟩, room + 1 => by
    rw [TypeDef.read]
    refine TypeDef.decodes_record h ?_
    rintro _ ⟨ws, rfl, hws⟩
    exact decodes_memberList members hws room

theorem decodes_memberList : ∀ (ms : List Member) {ws : List Value}, membersShownAs ms ws →
    ∀ room : Nat, Decodes (Member.readList room) room (.list ws) ms
  | ms, ws, h, 0 => by
    rw [Member.readList]
    exact decodes_list_full
  | ms, ws, h, room + 1 => by
    rw [Member.readList]
    exact decodes_list (decodes_members ms h room)

theorem decodes_members : ∀ (ms : List Member) {ws : List Value}, membersShownAs ms ws →
    ∀ room : Nat, List.Forall₂ (Decodes (Member.read room) room) ws ms
  | [], _, rfl, _ => .nil
  | m :: ms, _, ⟨_, _, rfl, hm, hms⟩, room => .cons (m.decodes hm room) (decodes_members ms hms room)

/-- What shows a member is read as that member. -/
theorem Member.decodes : ∀ (m : Member) {v : Value}, m.ShownAs v → ∀ room : Nat,
    Decodes (Member.read room) room v m
  | { symbol, kind, visibility, tag, overrides, body, span }, _, ⟨_, rfl, h⟩, 0 => by
    rw [Member.read]
    exact decodes_record_full
  | { symbol, kind, visibility, tag, overrides, body, span }, _, ⟨_, rfl, h⟩, room + 1 => by
    rw [Member.read]
    refine Member.decodes_record h ?_
    rintro _ ⟨ws, rfl, hws⟩
    exact decodes_body body hws room

theorem decodes_body : ∀ (body : List Expr) {ws : List Value}, bodyShownAs body ws →
    ∀ room : Nat, Decodes (Expr.readBody room) room (.list ws) body
  | body, ws, h, 0 => by
    rw [Expr.readBody]
    exact decodes_list_full
  | body, ws, h, room + 1 => by
    rw [Expr.readBody]
    exact decodes_list (decodes_exprs body h room)

theorem decodes_exprs : ∀ (body : List Expr) {ws : List Value}, bodyShownAs body ws →
    ∀ room : Nat, List.Forall₂ (Decodes (Expr.read room) room) ws body
  | [], _, rfl, _ => .nil
  | e :: body, _, ⟨_, _, rfl, he, hbody⟩, room =>
    .cons (e.decodes he room) (decodes_exprs body hbody room)

/-- What shows an expression is read as that expression. -/
theorem Expr.decodes : ∀ (e : Expr) {v : Value}, e.ShownAs v → ∀ room : Nat,
    Decodes (Expr.read room) room v e
  | .use _ _ _, _, ⟨_, rfl, _⟩, 0 | .lambda _ _ _, _, ⟨_, rfl, _⟩, 0
  | .anonymous _, _, ⟨_, rfl, _⟩, 0 | .block _, _, ⟨_, rfl, _⟩, 0 => by
    rw [Expr.read]
    exact decodes_alternative_full
  | .use how target span, _, ⟨_, rfl, h⟩, room + 1 => by
    rw [Expr.read]
    exact decodes_case (.use how.access) (how.decodes target span h)
  | .lambda context body span, _, ⟨_, rfl, h⟩, 1 => by
    rw [Expr.read]
    refine decodes_case .lambda ?_
    rw [Expr.readLambda]
    exact decodes_record_full
  | .lambda context body span, _, ⟨_, rfl, h⟩, room + 2 => by
    rw [Expr.read]
    refine decodes_case .lambda ?_
    rw [Expr.readLambda]
    refine decodes_lambda h ?_
    rintro _ ⟨ws, rfl, hws⟩
    exact decodes_body body hws room
  | .anonymous type, _, ⟨_, rfl, h⟩, room + 1 => by
    rw [Expr.read]
    exact decodes_case .anonymous ((type.decodes h room).map Expr.anonymous)
  | .block body, _, ⟨_, rfl, h⟩, room + 1 => by
    rw [Expr.read]
    exact decodes_case .block ((decodes_body body h room).map Expr.block)

end

/-! ### What is written shows everything, and so does what it is abridged to -/

theorem orNullShown_of_abridged {α : Type} {p : DocumentPart} {shown : α → Value → Prop}
    {write : α → Value} (hp : ∀ q, p ≠ .list q)
    (h : ∀ x w, Abridged p (write x) w → w ≠ .null ∧ shown x w) :
    ∀ {o : Option α} {w : Value}, Abridged p (orNull write o) w → orNullShown shown o w
  | some x, w, hw => h x w hw
  | none, _, hw => hw.eq_of_leaf hp nofun

theorem orNullShown_tag {o : Option Tag} {w : Value} (h : Abridged .leaf (orNull Tag.toValue o) w) :
    orNullShown Tag.ShownAs o w :=
  orNullShown_of_abridged (p := .leaf) nofun (fun t w hw => by
    obtain rfl : w = t.toValue := hw.eq_of_leaf nofun nofun
    exact ⟨nofun, rfl⟩) h

theorem orNullShown_symbol {o : Option Symbol} {w : Value}
    (h : Abridged .leaf (orNull Symbol.toValue o) w) : orNullShown Symbol.ShownAs o w :=
  orNullShown_of_abridged (p := .leaf) nofun (fun s w hw => by
    obtain rfl : w = s.toValue := hw.eq_of_leaf nofun nofun
    exact ⟨nofun, rfl⟩) h

theorem eq_none_of_orNull {α : Type} {write : α → Value} (h : ∀ x, write x ≠ .null) :
    ∀ {o : Option α}, some Value.null = some (orNull write o) → o = none
  | some x, e => absurd (Option.some.inj e).symm (h x)
  | none, _ => rfl

theorem Span.eq_default_of_toValue {s : Span} (h : some (Span.toValue {}) = some s.toValue) :
    s = {} := by
  simp only [Span.toValue, Option.some.injEq, Value.object.injEq, List.cons.injEq, Prod.mk.injEq,
    Value.natural.injEq, true_and, and_true, UInt64.toNat_inj] at h
  obtain ⟨start, stop⟩ := s
  obtain ⟨rfl, rfl⟩ := h
  rfl

theorem Span.shownAs_of_abridged (s : Span) (h : Abridged .span s.toValue v) : s.ShownAs v := by
  obtain ⟨fs, gs, rfl, hfs, order⟩ := h.of_object
  exact ⟨gs, rfl, hfs.shows order
    (.cons ⟨rfl, fun w hw => hw.eq_of_leaf nofun nofun, nofun⟩
      (.cons ⟨rfl, fun w hw => hw.eq_of_leaf nofun nofun, nofun⟩ .nil)) (by simp)⟩

theorem WrittenTag.shownAs_of_abridged (a : WrittenTag) (h : Abridged .writtenTag a.toValue v) :
    a.ShownAs v := by
  obtain ⟨fs, gs, rfl, hfs, order⟩ := h.of_object
  refine ⟨gs, rfl, hfs.shows order (.cons ?tag (.cons ?ignoreParent (.cons ?span .nil))) (by simp)⟩
  case tag => exact ⟨rfl, fun w hw => hw.eq_of_leaf nofun nofun, nofun⟩
  case ignoreParent =>
    exact ⟨rfl, fun w hw => hw.eq_of_leaf nofun nofun,
      fun h => (Value.boolean.inj (Option.some.inj h)).symm⟩
  case span => exact ⟨rfl, fun w hw => a.span.shownAs_of_abridged hw, Span.eq_default_of_toValue⟩

theorem orNullShown_writtenTag {o : Option WrittenTag} {w : Value}
    (h : Abridged .writtenTag (orNull WrittenTag.toValue o) w) :
    orNullShown WrittenTag.ShownAs o w :=
  orNullShown_of_abridged (p := .writtenTag) nofun (fun a w hw => by
    obtain ⟨es, rfl, hes⟩ := a.shownAs_of_abridged hw
    exact ⟨nofun, es, rfl, hes⟩) h

theorem Use.shows_of_abridged (how : Use) (target : Option Symbol) (span : Span)
    (h : Abridged .expr (how.toValue target span) v) :
    ∃ es, v = .object [(how.access.name, .object es)] ∧ Shows (how.slots target span) es := by
  obtain ⟨w, rfl, hw⟩ := h.of_case
  have target_fits : Slot.Fits .use
      { key := "target", shown := orNullShown Symbol.ShownAs target, isDefault := target = none }
      ("target", orNull Symbol.toValue target) :=
    ⟨rfl, fun w => orNullShown_symbol, eq_none_of_orNull nofun⟩
  have span_fits : Slot.Fits .use { key := "span", shown := span.ShownAs } ("span", span.toValue) :=
    ⟨rfl, fun w => span.shownAs_of_abridged, nofun⟩
  cases how with
  | methodRef context =>
    obtain ⟨fs, gs, rfl, hfs, order⟩ := hw.of_object
    refine ⟨gs, rfl, hfs.shows order (.cons target_fits (.cons ?_ (.cons span_fits .nil))) (by simp)⟩
    exact ⟨rfl, fun w => orNullShown_tag, eq_none_of_orNull nofun⟩
  | call | new | fieldAccess =>
    obtain ⟨fs, gs, rfl, hfs, order⟩ := hw.of_object
    exact ⟨gs, rfl, hfs.shows order (.cons target_fits (.cons span_fits .nil)) (by simp)⟩

theorem eq_pub_of_name : ∀ {w : Visibility}, "Public" = w.name → w = .pub
  | .pub, _ => rfl
  | .prot, h | .pkg, h | .priv, h => absurd h (by decide)

theorem eq_nil_of_memberValues : ∀ {ms : List Member}, [] = memberValues ms → ms = []
  | [], _ => rfl

theorem eq_nil_of_bodyValues : ∀ {body : List Expr}, [] = bodyValues body → body = []
  | [], _ => rfl

mutual

theorem TypeDef.shownAs_of_abridged : ∀ (t : TypeDef) {v : Value}, Abridged .type t.toValue v →
    t.ShownAs v
  | { name, tag, members, span }, _, h => by
    obtain ⟨fs, gs, rfl, hfs, order⟩ := h.of_object
    refine ⟨gs, rfl, hfs.shows order
      (.cons ?name (.cons ?tag (.cons ?members (.cons ?span .nil)))) (by simp)⟩
    case name => exact ⟨rfl, fun w hw => hw.eq_of_leaf nofun nofun, nofun⟩
    case tag => exact ⟨rfl, fun w => orNullShown_writtenTag, eq_none_of_orNull nofun⟩
    case members =>
      refine ⟨rfl, fun w hw => ?_, fun h =>
        eq_nil_of_memberValues (Value.list.inj (Option.some.inj h))⟩
      obtain ⟨ws, rfl, hws⟩ := hw.of_list
      exact ⟨ws, rfl, membersShownAs_of_abridged members hws⟩
    case span => exact ⟨rfl, fun w => span.shownAs_of_abridged, Span.eq_default_of_toValue⟩

theorem membersShownAs_of_abridged : ∀ (ms : List Member) {ws : List Value},
    AbridgedItems .member (memberValues ms) ws → membersShownAs ms ws
  | [], _, .nil => rfl
  | m :: ms, _, .cons h hs =>
    ⟨_, _, rfl, m.shownAs_of_abridged h, membersShownAs_of_abridged ms hs⟩

theorem Member.shownAs_of_abridged : ∀ (m : Member) {v : Value}, Abridged .member m.toValue v →
    m.ShownAs v
  | { symbol, kind, visibility, tag, overrides, body, span }, _, h => by
    obtain ⟨fs, gs, rfl, hfs, order⟩ := h.of_object
    refine ⟨gs, rfl, hfs.shows order (.cons ?symbol (.cons ?kind (.cons ?visibility (.cons ?tag
      (.cons ?overrides (.cons ?body (.cons ?span .nil))))))) (by simp)⟩
    case symbol | kind => exact ⟨rfl, fun w hw => hw.eq_of_leaf nofun nofun, nofun⟩
    case visibility =>
      exact ⟨rfl, fun w hw => hw.eq_of_leaf nofun nofun, fun h =>
        eq_pub_of_name (Value.string.inj (Option.some.inj h))⟩
    case tag => exact ⟨rfl, fun w => orNullShown_writtenTag, eq_none_of_orNull nofun⟩
    case overrides =>
      exact ⟨rfl, fun w hw => hw.eq_of_leaf nofun nofun, fun h =>
        List.map_eq_nil_iff.1 (Value.list.inj (Option.some.inj h)).symm⟩
    case body =>
      refine ⟨rfl, fun w hw => ?_, fun h =>
        eq_nil_of_bodyValues (Value.list.inj (Option.some.inj h))⟩
      obtain ⟨ws, rfl, hws⟩ := hw.of_list
      exact ⟨ws, rfl, bodyShownAs_of_abridged body hws⟩
    case span => exact ⟨rfl, fun w => span.shownAs_of_abridged, Span.eq_default_of_toValue⟩

theorem bodyShownAs_of_abridged : ∀ (body : List Expr) {ws : List Value},
    AbridgedItems .expr (bodyValues body) ws → bodyShownAs body ws
  | [], _, .nil => rfl
  | e :: body, _, .cons h hs =>
    ⟨_, _, rfl, e.shownAs_of_abridged h, bodyShownAs_of_abridged body hs⟩

theorem Expr.shownAs_of_abridged : ∀ (e : Expr) {v : Value}, Abridged .expr e.toValue v →
    e.ShownAs v
  | .use how target span, _, h => how.shows_of_abridged target span h
  | .lambda context body span, _, h => by
    obtain ⟨w, rfl, hw⟩ := h.of_case
    obtain ⟨fs, gs, rfl, hfs, order⟩ := Abridged.of_object hw
    refine ⟨gs, rfl, hfs.shows order (.cons ?context (.cons ?body (.cons ?span .nil))) (by simp)⟩
    case context => exact ⟨rfl, fun w => orNullShown_tag, eq_none_of_orNull nofun⟩
    case body =>
      refine ⟨rfl, fun w hw => ?_, nofun⟩
      obtain ⟨ws, rfl, hws⟩ := hw.of_list
      exact ⟨ws, rfl, bodyShownAs_of_abridged body hws⟩
    case span => exact ⟨rfl, fun w => span.shownAs_of_abridged, nofun⟩
  | .anonymous type, _, h => by
    obtain ⟨w, rfl, hw⟩ := h.of_case
    exact ⟨w, rfl, type.shownAs_of_abridged hw⟩
  | .block body, _, h => by
    obtain ⟨w, rfl, hw⟩ := h.of_case
    obtain ⟨ws, rfl, hws⟩ := Abridged.of_list hw
    exact ⟨ws, rfl, bodyShownAs_of_abridged body hws⟩

end

/-! ### Source files -/

namespace SourceUnit

/-- The fields of a source file. -/
def slots (u : SourceUnit) : List Slot :=
  [{ key := "path", shown := (· = .string u.path) },
    { key := "package", shown := (· = .string u.package), isDefault := u.package = "" },
    { key := "types",
      shown := fun w => ∃ ws, w = .list ws ∧ List.Forall₂ TypeDef.ShownAs u.types ws }]

/-- A value shows the source file. -/
def ShownAs (u : SourceUnit) (v : Value) : Prop := ∃ es, v = .object es ∧ Shows u.slots es

theorem types_shownAs_of_abridged : ∀ {ts : List TypeDef} {ws : List Value},
    AbridgedItems .type (ts.map TypeDef.toValue) ws → List.Forall₂ TypeDef.ShownAs ts ws
  | [], _, .nil => .nil
  | t :: _, _, .cons h hs => .cons (t.shownAs_of_abridged h) (types_shownAs_of_abridged hs)

theorem shownAs_of_abridged (u : SourceUnit) (h : Abridged .file u.toValue v) : u.ShownAs v := by
  obtain ⟨fs, gs, rfl, hfs, order⟩ := h.of_object
  refine ⟨gs, rfl, hfs.shows order (.cons ?path (.cons ?package (.cons ?types .nil))) (by simp)⟩
  case path => exact ⟨rfl, fun w hw => hw.eq_of_leaf nofun nofun, nofun⟩
  case package =>
    exact ⟨rfl, fun w hw => hw.eq_of_leaf nofun nofun,
      fun h => (Value.string.inj (Option.some.inj h)).symm⟩
  case types =>
    refine ⟨rfl, fun w hw => ?_, nofun⟩
    obtain ⟨ws, rfl, hws⟩ := hw.of_list
    exact ⟨ws, rfl, types_shownAs_of_abridged hws⟩

theorem shownAs_toValue (u : SourceUnit) : u.ShownAs u.toValue := u.shownAs_of_abridged .same

/-- What is known of a source file after some keys. -/
def draft (u : SourceUnit) (seen : List String) : UnitDraft :=
  ⟨known seen "path" u.path, known seen "package" u.package, known seen "types" u.types⟩

theorem decodes_types {ts : List TypeDef} {ws : List Value}
    (h : List.Forall₂ TypeDef.ShownAs ts ws) :
    Decodes (TypeDef.readList room) room (.list ws) ts := by
  rcases room with _ | room
  · rw [TypeDef.readList]
    exact decodes_list_full
  · rw [TypeDef.readList]
    exact decodes_list (h.flip.imp fun w t ht => t.decodes ht room)

/-- What shows a source file is read as that file. -/
theorem decodes (u : SourceUnit) (h : u.ShownAs v) : Decodes (SourceUnit.read room) room v u := by
  obtain ⟨es, rfl, h⟩ := h
  rcases room with _ | room
  · rw [SourceUnit.read]
    exact decodes_record_full
  rw [SourceUnit.read]
  refine decodes_shown u.draft h ?_ ?_
  · simp only [slots, List.forall_mem_cons]
    refine ⟨fun v hv => ?_, fun v hv => ?_, fun v hv => ?_, by simp⟩
    · exact .of_decodes rfl (hv ▸ decodes_text _ u.path) fun seen => by simp [draft]
    · exact .of_decodes rfl (hv ▸ decodes_text _ u.package) fun seen => by simp [draft]
    · obtain ⟨ws, rfl, hws⟩ := hv
      exact .of_decodes rfl (decodes_types hws) fun seen => by simp [draft]
  · intro seen hseen
    simp only [slots, List.forall_mem_cons, or_false] at hseen
    obtain ⟨hpath, hpackage, htypes, -⟩ := hseen
    simp only [UnitDraft.finish, draft, known_of_mem hpath, known_getD hpackage,
      known_of_mem htypes, needed]
    rfl

/-- A document that shows a source file gives that file if it nests no deeper than the limit, and
otherwise is refused because it nests too deep. -/
theorem ofText_document (u : SourceUnit) {text : List Char} (hu : u.ShownAs v)
    (htext : DocumentOf v text) :
    (v.depth ≤ nestingLimit ∧ SourceUnit.ofText (String.ofList text) = .ok u) ∨
    (nestingLimit < v.depth ∧ ∃ f, SourceUnit.ofText (String.ofList text) = .error f ∧
      f.fault = .nestedTooDeep) :=
  (u.decodes hu).document htext

/-- Writing a source file and reading it back. What is written is a document of the file; it is read
as the same file if its brackets nest at most 127 deep, and otherwise refused because they nest
deeper. -/
theorem ofText_toText (u : SourceUnit) :
    DocumentOf u.toValue u.toText.toList ∧
    if u.toValue.depth ≤ 127 then SourceUnit.ofText u.toText = .ok u
    else ∃ f, SourceUnit.ofText u.toText = .error f ∧ f.fault = .nestedTooDeep := by
  have written : DocumentOf u.toValue u.toText.toList := documentOf_text u.toValue
  refine ⟨written, ?_⟩
  have outcome := u.ofText_document u.shownAs_toValue written
  rw [String.ofList_toList] at outcome
  rcases outcome with ⟨hdepth, read⟩ | ⟨hdepth, refused⟩
  · rwa [if_pos (show u.toValue.depth ≤ 127 from hdepth)]
  · rwa [if_neg (show ¬ u.toValue.depth ≤ 127 from Nat.not_le.2 hdepth)]

/-- However the document of a source file is abridged and spaced out, it nests no deeper than the
whole document, and it is read as the same file if its brackets nest at most 127 deep. -/
theorem ofText_abridged (u : SourceUnit) {text : List Char} (hv : Abridged .file u.toValue v)
    (htext : DocumentOf v text) :
    v.depth ≤ u.toValue.depth ∧
    if v.depth ≤ 127 then SourceUnit.ofText (String.ofList text) = .ok u
    else ∃ f, SourceUnit.ofText (String.ofList text) = .error f ∧ f.fault = .nestedTooDeep := by
  refine ⟨hv.depth_le, ?_⟩
  rcases u.ofText_document (u.shownAs_of_abridged hv) htext with ⟨hdepth, read⟩ | ⟨hdepth, refused⟩
  · rwa [if_pos (show v.depth ≤ 127 from hdepth)]
  · rwa [if_neg (show ¬ v.depth ≤ 127 from Nat.not_le.2 hdepth)]

/-- The keys of three objects are turned round, and nine entries are left out. -/
theorem ofText_abridged_loader :
    let load : Member :=
      { symbol := ⟨"app.Loader#load()"⟩, kind := .method, tag := some { tag := .worker },
        body := [.use .call none ⟨14, 20⟩] }
    let file : SourceUnit :=
      { path := "Loader.java", types := [{ name := "app.Loader", members := [load] }] }
    let call : Value := .object [("Call", .object [("span",
      .object [("end", .natural 20), ("start", .natural 14)])])]
    let member : Value := .object [("kind", .string "Method"),
      ("symbol", .string "app.Loader#load()"), ("tag", .object [("tag", .string "Worker")]),
      ("body", .list [call])]
    let type : Value := .object [("members", .list [member]), ("name", .string "app.Loader")]
    let short : Value := .object [("path", .string "Loader.java"), ("types", .list [type])]
    Abridged .file file.toValue short ∧ short.depth = 9 ∧
      SourceUnit.ofText short.compactText = .ok file := by
  intro load file call member type short
  have span : Abridged .span (Span.toValue ⟨14, 20⟩) _ :=
    .object (.keep .same (.keep .same .nil)) (.swap _ _ _)
  have call_short : Abridged .expr (Expr.use .call none ⟨14, 20⟩).toValue call :=
    .object (.keep (.object (.leaveOut rfl (.keep span .nil)) .rfl) .nil) .rfl
  have tag : Abridged .writtenTag (WrittenTag.toValue { tag := .worker }) _ :=
    .object (.keep .same (.leaveOut rfl (.leaveOut rfl .nil))) .rfl
  have member_short : Abridged .member load.toValue member :=
    .object (.keep .same (.keep .same (.leaveOut rfl (.keep tag (.leaveOut rfl
      (.keep (.list (.cons call_short .nil)) (.leaveOut rfl .nil))))))) (.swap _ _ _)
  have type_short :
      Abridged .type (TypeDef.toValue { name := "app.Loader", members := [load] }) type :=
    .object (.keep .same (.leaveOut rfl (.keep (.list (.cons member_short .nil))
      (.leaveOut rfl .nil)))) (.swap _ _ _)
  have file_short : Abridged .file file.toValue short :=
    .object (.keep .same (.leaveOut rfl (.keep (.list (.cons type_short .nil)) .nil))) .rfl
  obtain ⟨-, read⟩ := file.ofText_abridged file_short (documentOf_write Layout.compact_blank short)
  rw [if_pos (by decide)] at read
  exact ⟨file_short, by decide, read⟩

/-- A call inside 59 blocks goes to the limit. -/
example :
    let body := [Nat.repeat (fun e => Expr.block [e]) 59 (.use .call none {})]
    let type : TypeDef := { name := "A", members := [{ symbol := ⟨"A#m()"⟩, kind := .method, body }] }
    (SourceUnit.mk "A.java" "" [type]).toValue.depth = 127 := by
  decide +kernel

end SourceUnit

end ThreadAffinity
