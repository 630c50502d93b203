import Mathlib.Data.List.Forall2
import Mathlib.Data.List.Perm.Basic
import Mathlib.Data.List.TakeWhile
import ThreadAffinity.Settings.Basic

/-!
Argument lists, one argument at a time.

A trimmed argument says one thing (`Says`) or is refused for one reason (`Refused`). What a list of
arguments asks for is put together from what they say: the packages and the bridges in their order,
the last word on the listing, and no advisories as soon as one argument is against them. So
arguments of different sorts may be interleaved at will, and settings can be written down as an
argument list and read back. -/

namespace ThreadAffinity

/-- A text with no blank at either end is trimmed. -/
theorem Text.trim_eq_self {s : String} (hfirst : ∀ c ∈ s.toList.head?, isBlank c = false)
    (hlast : ∀ c ∈ s.toList.getLast?, isBlank c = false) : trim s = s := by
  have keep : ∀ {cs : List Char}, (∀ c ∈ cs.head?, isBlank c = false) → cs.dropWhile isBlank = cs
    | [], _ => rfl
    | c :: cs, h => List.dropWhile_cons_of_neg (by simp [h c rfl])
  rw [trim, trimBlanks, dropTrailingBlanks, keep hfirst, keep (by rwa [List.head?_reverse]),
    List.reverse_reverse, String.ofList_toList]

/-- What an argument says. -/
inductive Argument where
  | nothing
  | package (name : String)
  | listing (path : String)
  | bridge (source target : Tag)
  /-- No advisories about members that nobody annotated. -/
  | silence
deriving DecidableEq, Repr

namespace Argument

/-- The package that the argument leaves out. -/
def package? : Argument → Option String
  | package name => some name
  | _ => none

/-- The path that the argument gives. -/
def listing? : Argument → Option String
  | listing path => some path
  | _ => none

/-- The bridge that the argument lays. -/
def bridge? : Argument → Option (Tag × Tag)
  | bridge source target => some (source, target)
  | _ => none

end Argument

namespace Settings

variable {option value a text left right : String} {arg : String} {args : List String}
  {x : Argument} {xs : List Argument} {e : SetupError} {s : Settings}

/-! ### Prefixes and colons -/

theorem optionValue?_eq_some_iff : optionValue? option a = some value ↔ a = option ++ value := by
  rw [optionValue?, Option.map_eq_some_iff]
  constructor
  · rintro ⟨rest, hrest, rfl⟩
    rw [← String.toList_inj, String.toList_append, String.toList_ofList]
    exact (List.isPrefixOf?_eq_some_iff_append_eq.1 hrest).symm
  · rintro rfl
    exact ⟨value.toList, List.isPrefixOf?_eq_some_iff_append_eq.2 String.toList_append.symm,
      String.ofList_toList⟩

theorem optionValue?_eq_none_iff : optionValue? option a = none ↔ ∀ value, a ≠ option ++ value := by
  simp only [Option.eq_none_iff_forall_ne_some, ne_eq, optionValue?_eq_some_iff]

theorem optionValue?_append (option value : String) :
    optionValue? option (option ++ value) = some value :=
  optionValue?_eq_some_iff.2 rfl

/-- The option for a listing is not the start of the option for a bridge. -/
theorem optionValue?_listing_bridge (value : String) :
    optionValue? "--dump=" ("--bridge=" ++ value) = none :=
  optionValue?_eq_none_iff.2 fun value => by simp [← String.toList_inj]

theorem ne_colon (h : ':' ∉ text.toList) : ∀ c ∈ text.toList, (c != ':') = true := by
  intro c hc
  rw [bne_iff_ne]
  rintro rfl
  exact h hc

/-- The first colon divides a text in two. -/
theorem splitColon?_append (h : ':' ∉ left.toList) :
    splitColon? (left ++ ":" ++ right) = some (left, right) := by
  have htext : (left ++ ":" ++ right).toList = left.toList ++ ':' :: right.toList := by simp
  simp [splitColon?, htext, List.dropWhile_append_of_pos (ne_colon h),
    List.takeWhile_append_of_pos (ne_colon h)]

theorem splitColon?_of_not_mem (h : ':' ∉ text.toList) : splitColon? text = none := by
  have hnone : text.toList.dropWhile (· != ':') = [] := List.dropWhile_eq_nil_iff.2 (ne_colon h)
  simp [splitColon?, hnone]

/-- A text has no colon or is divided by its first one. -/
theorem exists_colon (text : String) :
    ':' ∉ text.toList ∨ ∃ left right, ':' ∉ left.toList ∧ text = left ++ ":" ++ right := by
  refine or_iff_not_imp_left.2 fun h => ?_
  obtain ⟨before, behind, hsplit, hbefore⟩ := List.eq_append_cons_of_mem (not_not.1 h)
  refine ⟨String.ofList before, String.ofList behind, by simpa, ?_⟩
  rw [← String.toList_inj]
  simpa using hsplit

/-! ### One argument -/

/-- What a trimmed argument says. -/
inductive Says : String → Argument → Prop
  | blank : Says "" .nothing
  | standardListing : Says "--dump" (.listing defaultListing)
  | listing {path : String} (h : path ≠ "") : Says ("--dump=" ++ path) (.listing path)
  | bridge {left right : String} {source target : Tag} (h : ':' ∉ left.toList)
      (hsource : Tag.parse left = .ok source) (htarget : Tag.parse right = .ok target) :
      Says ("--bridge=" ++ (left ++ ":" ++ right)) (.bridge source target)
  | silence : Says "--no-unannotated" .silence
  | package {name : String} (h : name ≠ "") (hoption : ∀ rest, name ≠ "--" ++ rest) :
      Says name (.package name)

/-- A text that is written like one of the options. -/
inductive IsOption : String → Prop
  | standardListing : IsOption "--dump"
  | listing {path : String} : IsOption ("--dump=" ++ path)
  | bridge {text : String} : IsOption ("--bridge=" ++ text)
  | silence : IsOption "--no-unannotated"

/-- Why a trimmed argument is refused. -/
inductive Refused : String → SetupError → Prop
  | path : Refused "--dump=" .missingPath
  | colon {text : String} (h : ':' ∉ text.toList) :
      Refused ("--bridge=" ++ text) (.malformedBridge text)
  | source {left right : String} {e : SetupError} (h : ':' ∉ left.toList)
      (hsource : Tag.parse left = .error e) : Refused ("--bridge=" ++ (left ++ ":" ++ right)) e
  | target {left right : String} {source : Tag} {e : SetupError} (h : ':' ∉ left.toList)
      (hsource : Tag.parse left = .ok source) (htarget : Tag.parse right = .error e) :
      Refused ("--bridge=" ++ (left ++ ":" ++ right)) e
  | option {rest : String} (h : ¬ IsOption ("--" ++ rest)) :
      Refused ("--" ++ rest) (.unknownOption ("--" ++ rest))

/-- The settings after what an argument says. -/
def heed (s : Settings) : Argument → Settings
  | .nothing => s
  | .package name => s.ignoring name
  | .listing path => s.listingTo path
  | .bridge source target => s.bridging source target
  | .silence => s.advising false

theorem addArgument_bridge (ha : Text.trim arg = "--bridge=" ++ text) (s : Settings) :
    s.addArgument arg = (parseBridge text).map fun b => s.bridging b.1 b.2 := by
  unfold addArgument
  simp only [ha, optionValue?_listing_bridge, optionValue?_append]
  rw [if_neg (by simp [← String.toList_inj]), if_neg (by simp [← String.toList_inj])]
  cases parseBridge text <;> rfl

theorem parseBridge_append (h : ':' ∉ left.toList) :
    parseBridge (left ++ ":" ++ right) = do return (← Tag.parse left, ← Tag.parse right) := by
  rw [parseBridge, splitColon?_append h]

theorem of_not_isOption (h : ¬ IsOption a) : a ≠ "--dump" ∧ optionValue? "--dump=" a = none ∧
    optionValue? "--bridge=" a = none ∧ a ≠ "--no-unannotated" :=
  ⟨fun e => h (e ▸ .standardListing), optionValue?_eq_none_iff.2 fun _ e => h (e ▸ .listing),
    optionValue?_eq_none_iff.2 fun _ e => h (e ▸ .bridge), fun e => h (e ▸ .silence)⟩

/-- The options start with two hyphens. -/
theorem not_isOption_of_plain (h : ∀ rest, a ≠ "--" ++ rest) : ¬ IsOption a := by
  rintro (_ | @path | @text | _)
  · exact h "dump" rfl
  · exact h ("dump=" ++ path) (by rw [← String.append_assoc]; rfl)
  · exact h ("bridge=" ++ text) (by rw [← String.append_assoc]; rfl)
  · exact h "no-unannotated" rfl

/-- An argument that is none of the options is a package, unless it looks like an option. -/
theorem addArgument_of_not_isOption (ha : Text.trim arg = a) (hblank : a ≠ "") (h : ¬ IsOption a)
    (s : Settings) : s.addArgument arg =
      if (optionValue? "--" a).isSome then .error (.unknownOption a) else .ok (s.ignoring a) := by
  obtain ⟨hdump, hlisting, hbridge, hsilence⟩ := of_not_isOption h
  unfold addArgument
  simp only [ha, hlisting, hbridge]
  rw [if_neg hblank, if_neg hdump, if_neg hsilence]
  rfl

theorem addArgument_heed (h : Says (Text.trim arg) x) (s : Settings) :
    s.addArgument arg = .ok (s.heed x) := by
  generalize ha : Text.trim arg = a at h
  cases h with
  | blank | standardListing | silence =>
    unfold addArgument
    simp only [ha]
    rfl
  | @listing path h =>
    unfold addArgument
    simp only [ha, optionValue?_append]
    rw [if_neg (by simp [← String.toList_inj]), if_neg (by simp [← String.toList_inj]), if_neg h]
    rfl
  | bridge h hsource htarget =>
    rw [addArgument_bridge ha, parseBridge_append h, hsource, htarget]
    rfl
  | package h hoption =>
    rw [addArgument_of_not_isOption ha h (not_isOption_of_plain hoption),
      optionValue?_eq_none_iff.2 hoption]
    rfl

theorem addArgument_of_refused (h : Refused (Text.trim arg) e) (s : Settings) :
    s.addArgument arg = .error e := by
  generalize ha : Text.trim arg = a at h
  cases h with
  | path =>
    unfold addArgument
    simp only [ha]
    rfl
  | colon h =>
    rw [addArgument_bridge ha, parseBridge, splitColon?_of_not_mem h]
    rfl
  | source h hsource =>
    rw [addArgument_bridge ha, parseBridge_append h, hsource]
    rfl
  | target h hsource htarget =>
    rw [addArgument_bridge ha, parseBridge_append h, hsource, htarget]
    rfl
  | @option rest h =>
    rw [addArgument_of_not_isOption ha (by simp [← String.toList_inj]) h, optionValue?_append]
    rfl

/-- An argument says something or is refused. -/
theorem says_or_refused (a : String) : (∃ x, Says a x) ∨ ∃ e, Refused a e := by
  rcases eq_or_ne a "" with rfl | hblank
  · exact .inl ⟨_, .blank⟩
  by_cases hoption : IsOption a
  · cases hoption with
    | standardListing => exact .inl ⟨_, .standardListing⟩
    | @listing path =>
      rcases eq_or_ne path "" with rfl | hpath
      · exact .inr ⟨_, .path⟩
      · exact .inl ⟨_, .listing hpath⟩
    | @bridge text =>
      rcases exists_colon text with h | ⟨left, right, h, rfl⟩
      · exact .inr ⟨_, .colon h⟩
      · cases hsource : Tag.parse left with
        | error e => exact .inr ⟨e, .source h hsource⟩
        | ok source =>
          cases htarget : Tag.parse right with
          | error e => exact .inr ⟨e, .target h hsource htarget⟩
          | ok target => exact .inl ⟨_, .bridge h hsource htarget⟩
    | silence => exact .inl ⟨_, .silence⟩
  · by_cases hrest : ∃ rest, a = "--" ++ rest
    · obtain ⟨rest, rfl⟩ := hrest
      exact .inr ⟨_, .option hoption⟩
    · exact .inl ⟨_, .package hblank fun rest h => hrest ⟨rest, h⟩⟩

/-- No argument says two things. -/
theorem Says.unique {y : Argument} (hx : Says (Text.trim arg) x) (hy : Says (Text.trim arg) y) :
    x = y := by
  have same : heed {} x = heed {} y :=
    Except.ok.inj ((addArgument_heed hx {}).symm.trans (addArgument_heed hy {}))
  cases x <;> cases y <;> simp_all [heed, ignoring, listingTo, bridging, advising]

/-! ### Many arguments -/

/-- Each argument of the list says what is listed. -/
abbrev SayAll (args : List String) (xs : List Argument) : Prop :=
  List.Forall₂ (fun arg x => Says (Text.trim arg) x) args xs

/-- The settings that are asked for. -/
def askedFor (xs : List Argument) : Settings where
  ignored := xs.filterMap Argument.package?
  bridges := CallPolicy.standardBridges ++ xs.filterMap Argument.bridge?
  listing := (xs.filterMap Argument.listing?).getLast?
  adviseUnannotated := !xs.contains .silence

theorem foldl_heed (s : Settings) (xs : List Argument) : xs.foldl heed s =
    { ignored := s.ignored ++ xs.filterMap Argument.package?,
      bridges := s.bridges ++ xs.filterMap Argument.bridge?,
      listing := (xs.filterMap Argument.listing?).getLast?.or s.listing,
      adviseUnannotated := s.adviseUnannotated && !xs.contains .silence } := by
  induction xs generalizing s with
  | nil => simp
  | cons x xs ih =>
    rw [List.foldl_cons, ih]
    cases x <;> simp [heed, ignoring, listingTo, bridging, advising, Argument.package?,
      Argument.bridge?, Argument.listing?, List.filterMap_cons, List.getLast?_cons]

theorem ofArguments_of_sayAll (h : SayAll args xs) : ofArguments args = .ok (askedFor xs) := by
  have run : ∀ s : Settings, args.foldlM addArgument s = .ok (xs.foldl heed s) := by
    induction h with
    | nil => exact fun s => rfl
    | cons hx _ ih =>
      intro s
      rw [List.foldlM_cons, addArgument_heed hx]
      exact ih _
  rw [ofArguments, run, foldl_heed]
  simp [askedFor]

theorem sayAll_or_refused : ∀ args : List String, (∃ xs, SayAll args xs) ∨
    ∃ before arg behind e, args = before ++ arg :: behind ∧ (∃ xs, SayAll before xs) ∧
      Refused (Text.trim arg) e
  | [] => .inl ⟨[], .nil⟩
  | arg :: args => by
    rcases says_or_refused (Text.trim arg) with ⟨x, hx⟩ | ⟨e, he⟩
    · rcases sayAll_or_refused args with ⟨xs, hxs⟩ | ⟨before, bad, behind, e, rfl, ⟨xs, hxs⟩, he⟩
      · exact .inl ⟨x :: xs, .cons hx hxs⟩
      · exact .inr ⟨arg :: before, bad, behind, e, rfl, ⟨x :: xs, .cons hx hxs⟩, he⟩
    · exact .inr ⟨[], arg, args, e, rfl, ⟨[], .nil⟩, he⟩

/-- Nothing behind a refused argument matters. -/
theorem ofArguments_of_refused {before behind : List String} (hbefore : SayAll before xs)
    (h : Refused (Text.trim arg) e) : ofArguments (before ++ arg :: behind) = .error e := by
  have hfirst := ofArguments_of_sayAll hbefore
  unfold ofArguments at hfirst ⊢
  rw [List.foldlM_append, hfirst]
  simp only [bind, Except.bind, List.foldlM_cons, addArgument_of_refused h]

theorem exists_sayAll_iff :
    (∃ xs, SayAll args xs) ↔ ∀ arg ∈ args, ∃ x, Says (Text.trim arg) x := by
  induction args with
  | nil => simp
  | cons arg args ih => simp [List.forall₂_cons_left_iff, ← ih]

theorem ofArguments_eq_ok_iff :
    ofArguments args = .ok s ↔ ∃ xs, SayAll args xs ∧ s = askedFor xs := by
  constructor
  · intro h
    rcases sayAll_or_refused args with ⟨xs, hxs⟩ | ⟨before, arg, behind, e, rfl, ⟨xs, hxs⟩, he⟩
    · exact ⟨xs, hxs, Except.ok.inj (h.symm.trans (ofArguments_of_sayAll hxs))⟩
    · exact absurd (h.symm.trans (ofArguments_of_refused hxs he)) nofun
  · rintro ⟨xs, hxs, rfl⟩
    exact ofArguments_of_sayAll hxs

theorem ofArguments_eq_error_iff : ofArguments args = .error e ↔
    ∃ before arg behind, args = before ++ arg :: behind ∧
      (∀ b ∈ before, ∃ x, Says (Text.trim b) x) ∧ Refused (Text.trim arg) e := by
  constructor
  · intro h
    rcases sayAll_or_refused args with ⟨xs, hxs⟩ | ⟨before, arg, behind, e', rfl, hbefore, he⟩
    · exact absurd (h.symm.trans (ofArguments_of_sayAll hxs)) nofun
    · obtain ⟨xs, hxs⟩ := hbefore
      obtain rfl : e = e' := Except.error.inj (h.symm.trans (ofArguments_of_refused hxs he))
      exact ⟨before, arg, behind, rfl, exists_sayAll_iff.1 ⟨xs, hxs⟩, he⟩
  · rintro ⟨before, arg, behind, rfl, hbefore, he⟩
    obtain ⟨xs, hxs⟩ := exists_sayAll_iff.2 hbefore
    exact ofArguments_of_refused hxs he

/-! ### Other orders -/

/-- The sorts of arguments of which the order matters. -/
inductive ArgumentSort where
  | package
  | listing
  | bridge
  /-- Blank arguments and switches. -/
  | other
deriving DecidableEq, Repr

/-- The sort of an argument, by its front. -/
def sortOf (arg : String) : ArgumentSort :=
  let a := Text.trim arg
  if a = "--dump" ∨ (optionValue? "--dump=" a).isSome then .listing
  else if (optionValue? "--bridge=" a).isSome then .bridge
  else if a = "" ∨ (optionValue? "--" a).isSome then .other
  else .package

/-- The arguments are put into another order, which keeps the packages, the listings and the bridges
in order among themselves. -/
def Rearranged (args args' : List String) : Prop :=
  args.Perm args' ∧ ∀ sort, sort ≠ .other →
    args.filter (sortOf · = sort) = args'.filter (sortOf · = sort)

/-- The sort of an argument, by what it says. -/
def saidSort : Argument → ArgumentSort
  | .package _ => .package
  | .listing _ => .listing
  | .bridge _ _ => .bridge
  | .nothing | .silence => .other

theorem sortOf_eq (h : Says (Text.trim arg) x) : sortOf arg = saidSort x := by
  generalize ha : Text.trim arg = a at h
  unfold sortOf
  simp only [ha]
  cases h with
  | blank | standardListing | silence => rfl
  | listing h => simp [optionValue?_append, saidSort]
  | @bridge left right source target h =>
    rw [if_neg, if_pos] <;>
      simp [optionValue?_listing_bridge, optionValue?_append, ← String.toList_inj, saidSort]
  | package h hoption =>
    obtain ⟨hdump, hlisting, hbridge, -⟩ := of_not_isOption (not_isOption_of_plain hoption)
    simp [hdump, hlisting, hbridge, h, optionValue?_eq_none_iff.2 hoption, saidSort]

theorem SayAll.filter (h : SayAll args xs) (sort : ArgumentSort) :
    SayAll (args.filter (sortOf · = sort)) (xs.filter (saidSort · = sort)) := by
  induction h with
  | nil => exact .nil
  | cons hx _ ih =>
    rw [List.filter_cons, List.filter_cons, sortOf_eq hx]
    split
    · exact .cons hx ih
    · exact ih

theorem SayAll.unique {ys : List Argument} (h : SayAll args xs) (hys : SayAll args ys) :
    xs = ys := by
  have once : Relator.RightUnique fun arg x => Says (Text.trim arg) x := by
    intro arg x y hx hy
    exact hx.unique hy
  exact List.right_unique_forall₂' once h hys

/-- What only one sort of argument says is said by the arguments of that sort. -/
theorem filterMap_filter_saidSort {β : Type} {f : Argument → Option β} {sort : ArgumentSort}
    (h : ∀ x, saidSort x ≠ sort → f x = none) (xs : List Argument) :
    (xs.filter (saidSort · = sort)).filterMap f = xs.filterMap f := by
  rw [List.filterMap_filter]
  refine List.filterMap_congr fun x _ => ?_
  by_cases hx : saidSort x = sort
  · simp [hx]
  · simp [hx, h x hx]

/-- Rearranged arguments say the same things, and of each sort in the same order. -/
theorem SayAll.rearranged {args' : List String} (h : SayAll args xs)
    (hargs : Rearranged args args') : ∃ ys, SayAll args' ys ∧ ys.Perm xs ∧
      ∀ sort, sort ≠ .other → ys.filter (saidSort · = sort) = xs.filter (saidSort · = sort) := by
  obtain ⟨ys, hys, hperm⟩ := List.perm_comp_forall₂ hargs.1.symm h
  refine ⟨ys, hys, hperm, fun sort hsort => ?_⟩
  have hsame := SayAll.filter hys sort
  rw [← hargs.2 sort hsort] at hsame
  exact SayAll.unique hsame (h.filter sort)

theorem askedFor_eq_of_perm {ys : List Argument} (hperm : ys.Perm xs)
    (h : ∀ sort, sort ≠ .other →
      ys.filter (saidSort · = sort) = xs.filter (saidSort · = sort)) :
    askedFor ys = askedFor xs := by
  have said : ∀ {β : Type} {f : Argument → Option β} (sort : ArgumentSort), sort ≠ .other →
      (∀ x, saidSort x ≠ sort → f x = none) → ys.filterMap f = xs.filterMap f :=
    fun sort hsort hf => by
      rw [← filterMap_filter_saidSort hf ys, ← filterMap_filter_saidSort hf xs, h sort hsort]
  have hpackages : ys.filterMap Argument.package? = xs.filterMap Argument.package? :=
    said .package nofun fun x hx => by cases x <;> simp_all [saidSort, Argument.package?]
  have hbridges : ys.filterMap Argument.bridge? = xs.filterMap Argument.bridge? :=
    said .bridge nofun fun x hx => by cases x <;> simp_all [saidSort, Argument.bridge?]
  have hlistings : ys.filterMap Argument.listing? = xs.filterMap Argument.listing? :=
    said .listing nofun fun x hx => by cases x <;> simp_all [saidSort, Argument.listing?]
  rw [askedFor, askedFor, hpackages, hbridges, hlistings, hperm.contains_eq]

theorem Rearranged.symm {args' : List String} (h : Rearranged args args') : Rearranged args' args :=
  ⟨h.1.symm, fun sort hsort => (h.2 sort hsort).symm⟩

theorem ofArguments_of_rearranged {args' : List String} (hargs : Rearranged args args')
    (h : ofArguments args = .ok s) : ofArguments args' = .ok s := by
  obtain ⟨xs, hxs, rfl⟩ := ofArguments_eq_ok_iff.1 h
  obtain ⟨ys, hys, hperm, hsame⟩ := hxs.rearranged hargs
  exact ofArguments_eq_ok_iff.2 ⟨ys, hys, (askedFor_eq_of_perm hperm hsame).symm⟩

/-! ### Settings as arguments -/

/-- The argument that lays a bridge. -/
def bridgeArgument (b : Tag × Tag) : String := "--bridge=" ++ (b.1.name ++ ":" ++ b.2.name)

/-- The settings as an argument list. -/
def toArguments (s : Settings) : List String :=
  s.ignored ++ (s.bridges.drop CallPolicy.standardBridges.length).map bridgeArgument ++
    (s.listing.map ("--dump=" ++ ·)).toList ++
    if s.adviseUnannotated then [] else ["--no-unannotated"]

/-- Settings that can be written as arguments. -/
structure Writable (s : Settings) : Prop where
  bridges : CallPolicy.standardBridges <+: s.bridges
  trimmed : ∀ p ∈ s.ignored, Text.trim p = p
  named : ∀ p ∈ s.ignored, p ≠ ""
  plain : ∀ p ∈ s.ignored, ∀ rest, p ≠ "--" ++ rest
  path : ∀ p ∈ s.listing, p ≠ ""
  pathEnd : ∀ p ∈ s.listing, ∀ c ∈ p.toList.getLast?, Text.isBlank c = false

/-- What the settings say as an argument list. -/
def toSaid (s : Settings) : List Argument :=
  s.ignored.map .package ++
    (s.bridges.drop CallPolicy.standardBridges.length).map (fun b => .bridge b.1 b.2) ++
    (s.listing.map .listing).toList ++ if s.adviseUnannotated then [] else [.silence]

theorem says_bridgeArgument (b : Tag × Tag) :
    Says (Text.trim (bridgeArgument b)) (.bridge b.1 b.2) := by
  obtain ⟨source, target⟩ := b
  have hparse : ∀ t : Tag, Tag.parse t.name = .ok t := fun t => by cases t <;> rfl
  have hcolon : ':' ∉ source.name.toList := by cases source <;> decide
  have hlast : ∀ c ∈ target.name.toList.getLast?, Text.isBlank c = false := by
    cases target <;> simp [Tag.name, Text.isBlank]
  have hname : target.name.toList ≠ [] := by cases target <;> decide
  rw [bridgeArgument, Text.trim_eq_self]
  · exact .bridge hcolon (hparse source) (hparse target)
  · simp [Text.isBlank]
  · simp only [String.toList_append, ← List.append_assoc]
    rwa [List.getLast?_append_of_ne_nil _ hname]

theorem sayAll_toArguments (h : s.Writable) : SayAll s.toArguments s.toSaid := by
  refine List.rel_append (List.rel_append (List.rel_append ?_ ?_) ?_) ?_
  · refine List.forall₂_map_right_iff.2 (List.forall₂_same.2 fun p hp => ?_)
    rw [h.trimmed p hp]
    exact .package (h.named p hp) (h.plain p hp)
  · refine List.forall₂_map_left_iff.2 (List.forall₂_map_right_iff.2 ?_)
    exact List.forall₂_same.2 fun b _ => says_bridgeArgument b
  · cases hlisting : s.listing with
    | none => exact .nil
    | some path =>
      have hpath : path.toList ≠ [] := by simpa using h.path path hlisting
      have htrim : Text.trim ("--dump=" ++ path) = "--dump=" ++ path := by
        refine Text.trim_eq_self (by simp [Text.isBlank]) ?_
        rw [String.toList_append, List.getLast?_append_of_ne_nil _ hpath]
        exact h.pathEnd path hlisting
      refine .cons ?_ .nil
      rw [htrim]
      exact .listing (h.path path hlisting)
  · split
    · exact .nil
    · exact .cons .silence .nil

theorem askedFor_toSaid (h : s.Writable) : askedFor s.toSaid = s := by
  obtain ⟨ignored, bridges, listing, advise⟩ := s
  obtain ⟨more, rfl⟩ := h.bridges
  cases listing <;> cases advise <;>
    simp [askedFor, toSaid, List.filterMap_append, List.filterMap_map, List.filterMap_cons,
      Function.comp_def, Argument.package?, Argument.bridge?, Argument.listing?]

/-- Arguments ask for settings as soon as each of them says something, the settings are put
together from what they say, and otherwise the first argument that says nothing is to blame. The
order of arguments of different sorts does not matter, and settings can be written as arguments. -/
theorem arguments_interleave (args : List String) :
    ((∃ s, ofArguments args = .ok s) ↔ ∀ arg ∈ args, ∃ x, Says (Text.trim arg) x) ∧
    (∀ s, ofArguments args = .ok s ↔ ∃ xs, SayAll args xs ∧ s = askedFor xs) ∧
    (∀ e, ofArguments args = .error e ↔ ∃ before arg behind, args = before ++ arg :: behind ∧
      (∀ b ∈ before, ∃ x, Says (Text.trim b) x) ∧ Refused (Text.trim arg) e) ∧
    (∀ args', Rearranged args args' →
      ∀ s, ofArguments args = .ok s ↔ ofArguments args' = .ok s) ∧
    (∀ s : Settings, s.Writable → Rearranged s.toArguments args → ofArguments args = .ok s) := by
  refine ⟨?_, fun s => ofArguments_eq_ok_iff, fun e => ofArguments_eq_error_iff,
    fun args' hargs s => ⟨ofArguments_of_rearranged hargs, ofArguments_of_rearranged hargs.symm⟩,
    fun s h hargs => ofArguments_of_rearranged hargs ?_⟩
  · rw [← exists_sayAll_iff]
    simp [ofArguments_eq_ok_iff]
  · rw [ofArguments_of_sayAll (sayAll_toArguments h), askedFor_toSaid h]

/-- Two packages, a listing, a bridge and silence: rearranged, and then with blanks, an empty argument
and a listing that is overruled. A bridge without a colon is to blame before an unknown option. -/
theorem arguments_interleave_vendor :
    ofArguments ["--no-unannotated", "org.vendor", "--bridge=Swing:Fx", "--dump=out/tags.txt",
      "com.thirdparty."] =
        .ok ⟨["org.vendor", "com.thirdparty."], [(.fxPlatform, .fx), (.swing, .fx)],
          some "out/tags.txt", false⟩ ∧
      ofArguments [" org.vendor\t", "--dump", "", "--bridge=Swing:Fx", "--dump=out/tags.txt",
        "com.thirdparty.", "--no-unannotated"] =
        .ok ⟨["org.vendor", "com.thirdparty."], [(.fxPlatform, .fx), (.swing, .fx)],
          some "out/tags.txt", false⟩ ∧
      ofArguments ["--dump", "--bridge=Swng", "--bogus"] = .error (.malformedBridge "Swng") := by
  have hwritable : Writable ⟨["org.vendor", "com.thirdparty."],
      [(.fxPlatform, .fx), (.swing, .fx)], some "out/tags.txt", false⟩ :=
    { bridges := ⟨[(.swing, .fx)], rfl⟩
      trimmed := by decide
      named := by decide
      plain := fun p hp => optionValue?_eq_none_iff.1 (by revert p; decide)
      path := by simp
      pathEnd := by simp [Text.isBlank] }
  have hrearranged : Rearranged (toArguments ⟨["org.vendor", "com.thirdparty."],
      [(.fxPlatform, .fx), (.swing, .fx)], some "out/tags.txt", false⟩)
      ["--no-unannotated", "org.vendor", "--bridge=Swing:Fx", "--dump=out/tags.txt",
        "com.thirdparty."] :=
    ⟨by decide, fun sort _ => by cases sort <;> decide⟩
  have htab : Says (Text.trim " org.vendor\t") (.package "org.vendor") :=
    .package (by decide) (optionValue?_eq_none_iff.1 (by decide))
  have hlisting : Says (Text.trim "--dump=out/tags.txt") (.listing "out/tags.txt") :=
    Says.listing (show "out/tags.txt" ≠ "" by decide)
  have hpackage : Says (Text.trim "com.thirdparty.") (.package "com.thirdparty.") :=
    .package (by decide) (optionValue?_eq_none_iff.1 (by decide))
  refine ⟨(arguments_interleave _).2.2.2.2 _ hwritable hrearranged,
    ((arguments_interleave _).2.1 _).2 ⟨[.package "org.vendor", .listing defaultListing, .nothing,
      .bridge .swing .fx, .listing "out/tags.txt", .package "com.thirdparty.", .silence],
      .cons htab (.cons .standardListing (.cons .blank (.cons (says_bridgeArgument (.swing, .fx))
        (.cons hlisting (.cons hpackage (.cons .silence .nil)))))), rfl⟩,
    ((arguments_interleave _).2.2.1 _).2 ⟨["--dump"], _, ["--bogus"], rfl, ?_, ?_⟩⟩
  · simpa using ⟨_, Says.standardListing⟩
  · exact Refused.colon (show ':' ∉ "Swng".toList by decide)

end Settings

end ThreadAffinity
