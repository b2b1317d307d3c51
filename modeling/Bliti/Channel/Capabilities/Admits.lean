import Bliti.Channel.Capabilities

/-!
# Capabilities - what the mirror admits

What a mirror admits, as a relation: an object is admitted where there is one
way of taking a key for each of its selectors under which its members are.  The
checker decides the relation with one side condition on every object it visits:
that no way of taking keys comes to a selector with no key to take.
-/

namespace Bliti.Channel.Capabilities

open Config

variable {φ : Type}

/-! ## Selectors left to take -/

/-- The selectors not yet consumed. -/
def unconsumed (r : Resolution φ) : List String :=
  selectors.filter fun name => name ∉ r.consumed

/-- An open selector is one not yet consumed. -/
theorem mem_unconsumed {r : Resolution φ} {selector : String} {keyed : Json.Map φ}
    (hopen : nextSelector r = some (selector, keyed)) : selector ∈ unconsumed r := by
  obtain ⟨name, hname, hfound⟩ := List.exists_of_findSome?_eq_some hopen
  split at hfound
  · cases hfound
  · rename_i hfresh
    rw [Option.map_eq_some_iff] at hfound
    obtain ⟨found, -, hpair⟩ := hfound
    obtain ⟨rfl, -⟩ := Prod.mk.inj hpair
    simpa [unconsumed, hname] using hfresh

/-- Taking a key of an open selector leaves fewer selectors to take. -/
theorem unconsumed_under {r : Resolution φ} {selector : String} {keyed : Json.Map φ}
    (hopen : nextSelector r = some (selector, keyed)) (under : Json.Map φ) :
    (unconsumed (r.under selector under)).length < (unconsumed r).length := by
  have hmem := mem_unconsumed hopen
  have hsub : unconsumed (r.under selector under) =
      (unconsumed r).filter fun name => name ≠ selector := by
    unfold unconsumed Resolution.under
    rw [List.filter_filter]
    congr 1
    funext name
    simp [and_comm]
  rw [hsub]
  exact List.length_filter_lt_length_iff_exists.mpr ⟨selector, hmem, by simp⟩

/-! ## Resolving below the keys of a selector -/

/-- What resolving below the keys of a selector yields is what each key of it
yields. -/
theorem resolveKeys_ok {below : Json.Map φ → Except Fault (List (Resolution φ))}
    {keyed : Json.Map φ} {all : List (Resolution φ)}
    (hall : resolveKeys below keyed = .ok all) :
    (∀ key under, (key, Json.object under) ∈ keyed →
      ∃ found, below under = .ok found ∧ ∀ r ∈ found, r ∈ all) ∧
    ∀ r ∈ all, ∃ key under found, (key, Json.object under) ∈ keyed ∧
      below under = .ok found ∧ r ∈ found := by
  induction keyed generalizing all with
  | nil =>
      obtain rfl : [] = all := by simpa [resolveKeys] using hall
      simp
  | cons member rest ih =>
      obtain ⟨name, value⟩ := member
      by_cases hobject : ∃ under, value = Json.object under
      · obtain ⟨under, rfl⟩ := hobject
        simp only [resolveKeys, bind, Except.bind, pure, Except.pure] at hall
        rcases hbelow : below under with fault | first
        · simp [hbelow] at hall
        · rcases hothers : resolveKeys below rest with fault | others
          · simp [hbelow, hothers] at hall
          · simp only [hbelow, hothers, Except.ok.injEq] at hall
            obtain ⟨heach, honly⟩ := ih hothers
            subst hall
            constructor
            · intro key under' hmem
              rcases List.mem_cons.mp hmem with hhead | hrest
              · obtain ⟨rfl, hsame⟩ := Prod.mk.inj hhead
                obtain rfl := Json.object.inj hsame
                exact ⟨first, hbelow, fun r hr => List.mem_append_left _ hr⟩
              · obtain ⟨found, hfound, hsub⟩ := heach key under' hrest
                exact ⟨found, hfound, fun r hr => List.mem_append_right _ (hsub r hr)⟩
            · intro r hr
              rcases List.mem_append.mp hr with hfirst | hlater
              · exact ⟨name, under, first, by simp, hbelow, hfirst⟩
              · obtain ⟨key, under', found, hmem, hfound, hin⟩ := honly r hlater
                exact ⟨key, under', found, List.mem_cons_of_mem _ hmem, hfound, hin⟩
      · have hskip : resolveKeys below ((name, value) :: rest) = resolveKeys below rest := by
          cases value with
          | object under => exact absurd ⟨under, rfl⟩ hobject
          | _ => rfl
        obtain ⟨heach, honly⟩ := ih (hskip ▸ hall)
        constructor
        · intro key under hmem
          rcases List.mem_cons.mp hmem with hhead | hrest
          · exact absurd ⟨under, (Prod.mk.inj hhead).2.symm⟩ hobject
          · exact heach key under hrest
        · intro r hr
          obtain ⟨key, under, found, hmem, hfound, hin⟩ := honly r hr
          exact ⟨key, under, found, List.mem_cons_of_mem _ hmem, hfound, hin⟩

/-- Resolving below the keys of a selector fails only where it fails below one. -/
theorem resolveKeys_error {below : Json.Map φ → Except Fault (List (Resolution φ))}
    {keyed : Json.Map φ} {fault : Fault} (herror : resolveKeys below keyed = .error fault) :
    ∃ key under, (key, Json.object under) ∈ keyed ∧ below under = .error fault := by
  induction keyed with
  | nil => simp [resolveKeys] at herror
  | cons member rest ih =>
      obtain ⟨name, value⟩ := member
      by_cases hobject : ∃ under, value = Json.object under
      · obtain ⟨under, rfl⟩ := hobject
        simp only [resolveKeys, bind, Except.bind, pure, Except.pure] at herror
        rcases hbelow : below under with fault' | first
        · simp only [hbelow, Except.error.injEq] at herror
          exact ⟨name, under, by simp, by rw [hbelow, herror]⟩
        · rcases hothers : resolveKeys below rest with fault' | others
          · simp only [hbelow, hothers, Except.error.injEq] at herror
            obtain ⟨key, under', hmem, hfails⟩ := ih (by rw [hothers, herror])
            exact ⟨key, under', List.mem_cons_of_mem _ hmem, hfails⟩
          · simp [hbelow, hothers] at herror
      · have hskip : resolveKeys below ((name, value) :: rest) = resolveKeys below rest := by
          cases value with
          | object under => exact absurd ⟨under, rfl⟩ hobject
          | _ => rfl
        obtain ⟨key, under, hmem, hfails⟩ := ih (hskip ▸ herror)
        exact ⟨key, under, List.mem_cons_of_mem _ hmem, hfails⟩

/-! ## Trying every resolution -/

/-- Some resolution is found exactly where there is one. -/
theorem anyResolution_ok {members : Resolution φ → Except Fault Unit}
    {deepest : Option Fault} {found : List (Resolution φ)} :
    anyResolution members deepest found = .ok () ↔ ∃ r ∈ found, members r = .ok () := by
  induction found generalizing deepest with
  | nil => simp [anyResolution]
  | cons r rest ih =>
      rw [anyResolution]
      rcases hmembers : members r with fault | ⟨⟩
      · simp only [List.mem_cons, exists_eq_or_imp, hmembers]
        split <;> simp [ih]
      · simp [hmembers]

/-! ## Taking keys -/

variable [ToString φ]

/-- The constraints a document may take a selector's key with: those under the
key it sets, or under any key where it sets none. -/
def Takes (document : Json.Map φ) (selector : String) (keyed under : Json.Map φ) : Prop :=
  match (Json.get document selector).filter fun value => !value.isNull with
  | none => ∃ key, (key, Json.object under) ∈ keyed
  | some value => Json.get keyed (keyOf value) = some (.object under)

/-- The constraints a document may come to by taking keys one after another. -/
inductive Branch (document : Json.Map φ) : Resolution φ → Resolution φ → Prop
  | here (r : Resolution φ) : Branch document r r
  | under {r r' : Resolution φ} {selector : String} {keyed under : Json.Map φ}
      (hopen : nextSelector r = some (selector, keyed))
      (htakes : Takes document selector keyed under)
      (hrest : Branch document (r.under selector under) r') : Branch document r r'

/-- The constraints with a key taken for each selector laid over them. -/
def Lays (document constraints : Json.Map φ) (r : Resolution φ) : Prop :=
  Branch document ⟨constraints, []⟩ r ∧ nextSelector r = none

/-- No way of taking keys comes to a selector with no key to take. -/
def LiveFrom (document : Json.Map φ) (r : Resolution φ) : Prop :=
  ∀ (r' : Resolution φ) (selector : String) (keyed : Json.Map φ),
    Branch document r r' → nextSelector r' = some (selector, keyed) →
    ∃ under, Takes document selector keyed under

/-- An object none of whose ways of taking keys comes to nothing. -/
def Live (document constraints : Json.Map φ) : Prop :=
  LiveFrom document ⟨constraints, []⟩

/-! ## Resolving selectors -/

/-- Constraints with no selector left open are come to by taking no more keys. -/
theorem branch_closed {document : Json.Map φ} {r r' : Resolution φ}
    (hclosed : nextSelector r = none) : Branch document r r' ↔ r' = r := by
  constructor
  · intro hbranch
    cases hbranch with
    | here => rfl
    | under hopen htakes hrest => simp [hclosed] at hopen
  · intro hsame
    rw [hsame]
    exact .here r

/-- Where a selector is open, a way of taking keys stops there or takes one of
its keys first. -/
theorem branch_open {document : Json.Map φ} {r r' : Resolution φ} {selector : String}
    {keyed : Json.Map φ} (hopen : nextSelector r = some (selector, keyed)) :
    Branch document r r' ↔ r' = r ∨ ∃ under, Takes document selector keyed under ∧
      Branch document (r.under selector under) r' := by
  constructor
  · intro hbranch
    cases hbranch with
    | here => exact .inl rfl
    | under hopen' htakes hrest =>
        rw [hopen] at hopen'
        obtain ⟨rfl, rfl⟩ := Prod.mk.inj (Option.some.inj hopen')
        exact .inr ⟨_, htakes, hrest⟩
  · intro hcases
    rcases hcases with rfl | ⟨under, htakes, hrest⟩
    · exact .here _
    · exact .under hopen htakes hrest

/-- Constraints with no selector left open are live. -/
theorem liveFrom_closed {document : Json.Map φ} {r : Resolution φ}
    (hclosed : nextSelector r = none) : LiveFrom document r := by
  intro r' selector keyed hbranch hopen
  rw [(branch_closed hclosed).mp hbranch, hclosed] at hopen
  cases hopen

/-- Where a selector is open, constraints are live exactly where it has a key to
take and are live below every such key. -/
theorem liveFrom_open {document : Json.Map φ} {r : Resolution φ} {selector : String}
    {keyed : Json.Map φ} (hopen : nextSelector r = some (selector, keyed)) :
    LiveFrom document r ↔ (∃ under, Takes document selector keyed under) ∧
      ∀ under, Takes document selector keyed under →
        LiveFrom document (r.under selector under) := by
  constructor
  · intro hlive
    refine ⟨hlive r selector keyed (.here r) hopen, ?_⟩
    intro under htakes r' selector' keyed' hbranch hopen'
    exact hlive r' selector' keyed' (.under hopen htakes hbranch) hopen'
  · intro hkeys r' selector' keyed' hbranch hopen'
    rcases (branch_open hopen).mp hbranch with rfl | ⟨under, htakes, hrest⟩
    · rw [hopen] at hopen'
      obtain ⟨rfl, rfl⟩ := Prod.mk.inj (Option.some.inj hopen')
      exact hkeys.1
    · exact hkeys.2 under htakes r' selector' keyed' hrest hopen'

/-- What resolving some constraints comes to: from live ones every way of taking
keys as far as there are any, and otherwise a fault. -/
structure Resolves (document : Json.Map φ) (r : Resolution φ) (found : List (Resolution φ)) :
    Prop where
  live : LiveFrom document r
  mem_iff : ∀ r', r' ∈ found ↔ Branch document r r' ∧ nextSelector r' = none
  nonempty : found ≠ []

/-- Constraints with no selector open resolve to themselves. -/
theorem Resolves.closed {document : Json.Map φ} {r : Resolution φ}
    (hclosed : nextSelector r = none) : Resolves document r [r] where
  live := liveFrom_closed hclosed
  mem_iff := by
    intro r'
    rw [branch_closed hclosed, List.mem_singleton]
    constructor
    · intro hsame
      exact ⟨hsame, hsame ▸ hclosed⟩
    · exact And.left
  nonempty := List.cons_ne_nil _ _

/-- Constraints with a selector open resolve to what they resolve to below the
keys of it that may be taken. -/
theorem Resolves.open {document : Json.Map φ} {r : Resolution φ} {selector : String}
    {keyed : Json.Map φ} {all : List (Resolution φ)}
    (hopen : nextSelector r = some (selector, keyed))
    (heach : ∀ under, Takes document selector keyed under →
      ∃ found, Resolves document (r.under selector under) found ∧ ∀ r' ∈ found, r' ∈ all)
    (honly : ∀ r' ∈ all, ∃ under found, Takes document selector keyed under ∧
      Resolves document (r.under selector under) found ∧ r' ∈ found)
    (hsome : all ≠ []) : Resolves document r all where
  live := by
    rw [liveFrom_open hopen]
    constructor
    · obtain ⟨r', hr'⟩ := List.exists_mem_of_ne_nil all hsome
      obtain ⟨under, found, htakes, -, -⟩ := honly r' hr'
      exact ⟨under, htakes⟩
    · intro under htakes
      obtain ⟨found, hfound, -⟩ := heach under htakes
      exact hfound.live
  mem_iff := by
    intro r'
    rw [branch_open hopen]
    constructor
    · intro hr'
      obtain ⟨under, found, htakes, hfound, hin⟩ := honly r' hr'
      obtain ⟨hbranch, hclosed⟩ := (hfound.mem_iff r').mp hin
      exact ⟨.inr ⟨under, htakes, hbranch⟩, hclosed⟩
    · intro hlays
      obtain ⟨rfl | ⟨under, htakes, hbranch⟩, hclosed⟩ := hlays
      · simp [hopen] at hclosed
      · obtain ⟨found, hfound, hsub⟩ := heach under htakes
        exact hsub r' ((hfound.mem_iff r').mpr ⟨hbranch, hclosed⟩)
  nonempty := hsome

/-- The answers resolving some constraints may give: every way of taking keys, or
a fault from constraints that are not live. -/
def ResolveSpec (document : Json.Map φ) (r : Resolution φ) :
    Except Fault (List (Resolution φ)) → Prop
  | .ok found => Resolves document r found
  | .error _ => ¬ LiveFrom document r

/-- Resolving a selector the document leaves unset, below every key of it. -/
theorem resolveSpec_unset {document : Json.Map φ} {r : Resolution φ} {selector : String}
    {keyed : Json.Map φ} {below : Json.Map φ → Except Fault (List (Resolution φ))}
    (hopen : nextSelector r = some (selector, keyed))
    (hunset : (Json.get document selector).filter (fun value => !value.isNull) = none)
    (hbelow : ∀ under, ResolveSpec document (r.under selector under) (below under))
    (fault : Fault) :
    ResolveSpec document r (do
      let all ← resolveKeys below keyed
      if all.isEmpty then .error fault else pure all) := by
  have htakes : ∀ under, Takes document selector keyed under ↔
      ∃ key, (key, Json.object under) ∈ keyed := by
    intro under
    simp only [Takes, hunset]
  rcases hkeys : resolveKeys below keyed with fault' | all
  · obtain ⟨key, under, hmem, hfails⟩ := resolveKeys_error hkeys
    have hdead := hbelow under
    rw [hfails] at hdead
    intro hlive
    exact hdead (((liveFrom_open hopen).mp hlive).2 under ((htakes under).mpr ⟨key, hmem⟩))
  · obtain ⟨heach, honly⟩ := resolveKeys_ok hkeys
    have hresolves : ∀ under found, below under = .ok found →
        Resolves document (r.under selector under) found := by
      intro under found hfound
      have hspec := hbelow under
      rw [hfound] at hspec
      exact hspec
    rcases all with _ | ⟨first, others⟩
    · intro hlive
      obtain ⟨under, htake⟩ := ((liveFrom_open hopen).mp hlive).1
      obtain ⟨key, hmem⟩ := (htakes under).mp htake
      obtain ⟨found, hfound, hnone⟩ := heach key under hmem
      obtain ⟨r', hr'⟩ := List.exists_mem_of_ne_nil found (hresolves under found hfound).nonempty
      cases hnone r' hr'
    · refine Resolves.open hopen (fun under htake => ?_) (fun r' hr' => ?_)
        (List.cons_ne_nil _ _)
      · obtain ⟨key, hmem⟩ := (htakes under).mp htake
        obtain ⟨found, hfound, hsub⟩ := heach key under hmem
        exact ⟨found, hresolves under found hfound, hsub⟩
      · obtain ⟨key, under, found, hmem, hfound, hin⟩ := honly r' hr'
        exact ⟨under, found, (htakes under).mpr ⟨key, hmem⟩, hresolves under found hfound, hin⟩

/-- Resolving a selector the document sets, below the key it sets. -/
theorem resolveSpec_set {document : Json.Map φ} {r : Resolution φ} {selector : String}
    {keyed : Json.Map φ} {value : Json φ}
    {below : Json.Map φ → Except Fault (List (Resolution φ))}
    (hopen : nextSelector r = some (selector, keyed))
    (hset : (Json.get document selector).filter (fun value => !value.isNull) = some value)
    (hbelow : ∀ under, ResolveSpec document (r.under selector under) (below under))
    (fault : Fault) :
    ResolveSpec document r (match Json.get keyed (keyOf value) with
      | some (.object under) => below under
      | _ => .error fault) := by
  have htakes : ∀ under, Takes document selector keyed under ↔
      Json.get keyed (keyOf value) = some (.object under) := by
    intro under
    simp only [Takes, hset]
  split
  · rename_i under hkey
    have honly : ∀ under', Takes document selector keyed under' → under' = under := by
      intro under' htake
      rw [htakes, hkey] at htake
      exact (Json.object.inj (Option.some.inj htake)).symm
    have hspec := hbelow under
    rcases hanswer : below under with fault' | found
    · rw [hanswer] at hspec
      intro hlive
      exact hspec (((liveFrom_open hopen).mp hlive).2 under ((htakes under).mpr hkey))
    · rw [hanswer] at hspec
      refine Resolves.open hopen (fun under' htake => ?_) (fun r' hr' => ?_) hspec.nonempty
      · rw [honly under' htake]
        exact ⟨found, hspec, fun _ => id⟩
      · exact ⟨under, found, (htakes under).mpr hkey, hspec, hr'⟩
  · rename_i hnokey
    intro hlive
    obtain ⟨under, htake⟩ := ((liveFrom_open hopen).mp hlive).1
    exact hnokey under ((htakes under).mp htake)

/-- Resolving yields every way of taking keys, or fails from constraints that
are not live. -/
theorem resolve_spec (document : Json.Map φ) (walked : List Segment) (turns : Nat)
    (r : Resolution φ) (hturns : (unconsumed r).length ≤ turns) :
    ResolveSpec document r (resolve document walked turns r) := by
  induction turns generalizing r with
  | zero =>
      rcases hnext : nextSelector r with _ | ⟨selector, keyed⟩
      · exact Resolves.closed hnext
      · have hmem := mem_unconsumed hnext
        rw [List.eq_nil_of_length_eq_zero (Nat.le_zero.mp hturns)] at hmem
        cases hmem
  | succ turns ih =>
      rcases hnext : nextSelector r with _ | ⟨selector, keyed⟩
      · simp only [resolve, hnext]
        exact Resolves.closed hnext
      · have hbelow : ∀ under, ResolveSpec document (r.under selector under)
            (resolve document walked turns (r.under selector under)) := by
          intro under
          have hfewer := unconsumed_under hnext under
          exact ih (r.under selector under) (by omega)
        simp only [resolve, hnext]
        split
        · rename_i hunset
          exact resolveSpec_unset hnext hunset hbelow _
        · rename_i value hset
          exact resolveSpec_set hnext hset hbelow _

/-- An object's selectors are resolved within as many turns as there are. -/
theorem resolve_selectors (document constraints : Json.Map φ) (walked : List Segment) :
    ResolveSpec document ⟨constraints, []⟩
      (resolve document walked selectors.length ⟨constraints, []⟩) :=
  resolve_spec document walked selectors.length ⟨constraints, []⟩
    (List.length_filter_le _ selectors)

/-- An object passes exactly where it is live and its members pass under some
way of taking keys. -/
theorem object_ok {document constraints : Json.Map φ} {walked : List Segment}
    {members : Resolution φ → Except Fault Unit} :
    object document constraints walked members = .ok () ↔
      Live document constraints ∧
        ∃ r, Lays document constraints r ∧ members r = .ok () := by
  have hspec := resolve_selectors document constraints walked
  unfold object
  rcases hresolve : resolve document walked selectors.length ⟨constraints, []⟩ with
    fault | found
  · rw [hresolve] at hspec
    simp only [bind, Except.bind, reduceCtorEq, false_iff]
    intro hobject
    exact hspec hobject.1
  · rw [hresolve] at hspec
    have hany : (∃ r ∈ found, members r = .ok ()) ↔
        ∃ r, Lays document constraints r ∧ members r = .ok () := by
      simp only [hspec.mem_iff, Lays]
    have hlive : Live document constraints := hspec.live
    simp only [bind, Except.bind, pure, Except.pure]
    rw [← hany, and_iff_right hlive]
    rcases htried : anyResolution members none found with deepest | ⟨⟩
    · simp only [reduceCtorEq, false_iff]
      intro hsome
      rw [anyResolution_ok.mpr hsome] at htried
      cases htried
    · simpa using anyResolution_ok.mp htried

variable [BEq φ]

/-! ## What is admitted -/

mutual

/-- An object admitted by the constraints on it: under some way of taking keys
each of its members is. -/
inductive AdmitsObject (good : Json.Map φ → Json.Map φ → Prop) :
    Context → Json.Map φ → Json.Map φ → Prop
  | laid {context : Context} {constraints document : Json.Map φ} {r : Resolution φ}
      (hgood : good document constraints) (hlays : Lays document constraints r)
      (hmembers : ∀ member ∈ document,
        AdmitsMember good context r (kindOf document) member) :
      AdmitsObject good context constraints document

/-- A member admitted: null, a selector taken, required of its kind and not
constrained, or within the constraint on it.  The objects a required member
holds are held to no constraints but what they require themselves. -/
inductive AdmitsMember (good : Json.Map φ → Json.Map φ → Prop) :
    Context → Resolution φ → Option String → String × Json φ → Prop
  | null {context : Context} {r : Resolution φ} {kind : Option String} (name : String) :
      AdmitsMember good context r kind (name, .null)
  | selector {context : Context} {r : Resolution φ} {kind : Option String}
      {name : String} (value : Json φ) (hconsumed : name ∈ r.consumed) :
      AdmitsMember good context r kind (name, value)
  | plain {context : Context} {r : Resolution φ} {kind : Option String}
      {name : String} {value : Json φ} (hfree : Json.get r.constraints name = none)
      (hrequired : required context kind name = true)
      (hplain : holdsObjects value = false) :
      AdmitsMember good context r kind (name, value)
  | holding {context : Context} {r : Resolution φ} {kind : Option String}
      {name : String} {value : Json φ} (hfree : Json.get r.constraints name = none)
      (hrequired : required context kind name = true)
      (hvalue : AdmitsValue good (context.child name) (.object []) value) :
      AdmitsMember good context r kind (name, value)
  | constrained {context : Context} {r : Resolution φ} {kind : Option String}
      {name : String} {value constraint : Json φ}
      (hconstraint : Json.get r.constraints name = some constraint)
      (hvalue : AdmitsValue good (context.child name) constraint value) :
      AdmitsMember good context r kind (name, value)

/-- A value admitted by a constraint: any under `true`, an array item by item,
an object member by member, else one of the values listed. -/
inductive AdmitsValue (good : Json.Map φ → Json.Map φ → Prop) :
    Context → Json φ → Json φ → Prop
  | any {context : Context} (value : Json φ) : AdmitsValue good context (.bool true) value
  | items {context : Context} {constraint : Json φ} {items : List (Json φ)}
      (hitems : ∀ item ∈ items, AdmitsValue good context constraint item) :
      AdmitsValue good context constraint (.array items)
  | object {context : Context} {constraints inner : Json.Map φ}
      (hobject : AdmitsObject good context constraints inner) :
      AdmitsValue good context (.object constraints) (.object inner)
  | listed {context : Context} {allowed : List (Json φ)} {value : Json φ}
      (hplain : ∀ items, value ≠ .array items) (hlisted : allowed.contains value = true) :
      AdmitsValue good context (.array allowed) value

end

/-! ## The checker decides what is admitted visiting live objects -/

/-- A null member is admitted, and so is a selector taken. -/
theorem admitsMember_skipped {good : Json.Map φ → Json.Map φ → Prop} {context : Context}
    {r : Resolution φ} {kind : Option String} {name : String} {value : Json φ}
    (hskipped : (value.isNull || r.consumed.contains name) = true) :
    AdmitsMember good context r kind (name, value) := by
  rcases Bool.or_eq_true_iff.mp hskipped with hnull | hconsumed
  · cases value with
    | null => exact .null name
    | _ => cases hnull
  · exact .selector value (by simpa using hconsumed)

/-- A member no constraint names, and neither null nor a selector taken, is
admitted exactly where it is required and its objects are admitted. -/
theorem admitsMember_free {good : Json.Map φ → Json.Map φ → Prop} {context : Context}
    {r : Resolution φ} {kind : Option String} {name : String} {value : Json φ}
    (hcounts : ¬ (value.isNull || r.consumed.contains name) = true)
    (hfree : Json.get r.constraints name = none) :
    AdmitsMember good context r kind (name, value) ↔
      required context kind name = true ∧ (holdsObjects value = true →
        AdmitsValue good (context.child name) (.object []) value) := by
  constructor
  · intro hadmits
    cases hadmits with
    | null => exact absurd rfl hcounts
    | selector value hconsumed => exact absurd (by simp [hconsumed]) hcounts
    | plain hfree hrequired hplain => exact ⟨hrequired, by simp [hplain]⟩
    | holding hfree hrequired hvalue => exact ⟨hrequired, fun _ => hvalue⟩
    | constrained hconstraint hvalue => simp [hfree] at hconstraint
  · intro hadmits
    obtain ⟨hrequired, hobjects⟩ := hadmits
    rcases hholds : holdsObjects value with _ | _
    · exact .plain hfree hrequired hholds
    · exact .holding hfree hrequired (hobjects hholds)

/-- A member a constraint names, and neither null nor a selector taken, is
admitted exactly where the constraint admits it. -/
theorem admitsMember_constrained {good : Json.Map φ → Json.Map φ → Prop}
    {context : Context} {r : Resolution φ} {kind : Option String} {name : String}
    {value constraint : Json φ} (hcounts : ¬ (value.isNull || r.consumed.contains name) = true)
    (hconstraint : Json.get r.constraints name = some constraint) :
    AdmitsMember good context r kind (name, value) ↔
      AdmitsValue good (context.child name) constraint value := by
  constructor
  · intro hadmits
    cases hadmits with
    | null => exact absurd rfl hcounts
    | selector value hconsumed => exact absurd (by simp [hconsumed]) hcounts
    | plain hfree => simp [hconstraint] at hfree
    | holding hfree => simp [hconstraint] at hfree
    | constrained hnamed hvalue =>
        rw [hconstraint] at hnamed
        rw [Option.some.inj hnamed]
        exact hvalue
  · exact .constrained hconstraint

/-- An array under any constraint but `true` is admitted item by item. -/
theorem admitsValue_array {good : Json.Map φ → Json.Map φ → Prop} {context : Context}
    {constraint : Json φ} {items : List (Json φ)} (hbound : constraint ≠ .bool true) :
    AdmitsValue good context constraint (.array items) ↔
      ∀ item ∈ items, AdmitsValue good context constraint item := by
  constructor
  · intro hadmits
    cases hadmits with
    | any => exact absurd rfl hbound
    | items hitems => exact hitems
    | listed hplain => exact absurd rfl (hplain items)
  · exact .items

/-- An object under the constraints of an object is admitted member by member. -/
theorem admitsValue_object {good : Json.Map φ → Json.Map φ → Prop} {context : Context}
    {constraints inner : Json.Map φ} :
    AdmitsValue good context (.object constraints) (.object inner) ↔
      AdmitsObject good context constraints inner := by
  constructor
  · intro hadmits
    cases hadmits with
    | object hobject => exact hobject
  · exact .object

/-- An object is admitted exactly where it is visited well and its members are
admitted under some way of taking keys. -/
theorem admitsObject_iff {good : Json.Map φ → Json.Map φ → Prop} {context : Context}
    {constraints document : Json.Map φ} :
    AdmitsObject good context constraints document ↔ good document constraints ∧
      ∃ r, Lays document constraints r ∧
        ∀ member ∈ document, AdmitsMember good context r (kindOf document) member := by
  constructor
  · intro hadmits
    cases hadmits with
    | laid hgood hlays hmembers => exact ⟨hgood, _, hlays, hmembers⟩
  · intro hadmits
    obtain ⟨hgood, r, hlays, hmembers⟩ := hadmits
    exact .laid hgood hlays hmembers

/-- A value that is no array is admitted by the values listed exactly where it
is one of them. -/
theorem admitsValue_listed {good : Json.Map φ → Json.Map φ → Prop} {context : Context}
    {allowed : List (Json φ)} {value : Json φ} (hplain : ∀ items, value ≠ .array items) :
    AdmitsValue good context (.array allowed) value ↔ allowed.contains value = true := by
  constructor
  · intro hadmits
    cases hadmits with
    | items => exact absurd rfl (hplain _)
    | listed _ hlisted => exact hlisted
  · exact .listed hplain

/-- A value that is no array is admitted by no constraint but `true`, an array
or, where it is an object, an object. -/
theorem not_admitsValue {good : Json.Map φ → Json.Map φ → Prop} {context : Context}
    {constraint value : Json φ} (hbound : constraint ≠ .bool true)
    (hplain : ∀ items, value ≠ .array items) (hlist : ∀ allowed, constraint ≠ .array allowed)
    (hobject : ∀ constraints inner, constraint = .object constraints → value ≠ .object inner) :
    ¬ AdmitsValue good context constraint value := by
  intro hadmits
  cases hadmits with
  | any => exact hbound rfl
  | items => exact hplain _ rfl
  | object => exact hobject _ _ rfl rfl
  | listed => exact hlist _ rfl

/-- One check after another passes exactly where both do. -/
theorem then_ok {first second : Except Fault Unit} :
    (do first; second) = .ok () ↔ first = .ok () ∧ second = .ok () := by
  rcases first with fault | ⟨⟩
  · simp [bind, Except.bind]
  · simp [bind, Except.bind]

mutual

/-- The members pass exactly where each is admitted. -/
theorem members_ok (r : Resolution φ) (context : Context) (kind : Option String)
    (walked : List Segment) (document : Json.Map φ) :
    members r context kind walked document = .ok () ↔
      ∀ member ∈ document, AdmitsMember Live context r kind member := by
  cases document with
  | nil => simp [members]
  | cons member rest =>
      rw [members, then_ok, List.forall_mem_cons, checkMember_ok r context kind walked member,
        members_ok r context kind walked rest]

/-- A member passes exactly where it is admitted. -/
theorem checkMember_ok (r : Resolution φ) (context : Context) (kind : Option String)
    (walked : List Segment) (member : String × Json φ) :
    checkMember r context kind walked member = .ok () ↔
      AdmitsMember Live context r kind member := by
  obtain ⟨name, value⟩ := member
  rw [checkMember]
  split
  · rename_i hskipped
    exact iff_of_true rfl (admitsMember_skipped hskipped)
  · rename_i hcounts
    split
    · rename_i hfree
      rw [admitsMember_free hcounts hfree]
      split
      · rename_i hrequired
        split
        · rename_i hholds
          rw [valueAgainst_ok]
          simp [hrequired, hholds]
        · rename_i hholds
          simp [hrequired, hholds]
      · rename_i hrequired
        simp [hrequired]
    · rename_i constraint hconstraint
      rw [valueAgainst_ok, admitsMember_constrained hcounts hconstraint]

/-- A value passes exactly where it is admitted. -/
theorem valueAgainst_ok (constraint : Json φ) (context : Context) (walked : List Segment)
    (value : Json φ) :
    valueAgainst constraint context walked value = .ok () ↔
      AdmitsValue Live context constraint value := by
  by_cases hany : ∃ b, constraint = .bool b ∧ b = true
  · obtain ⟨b, rfl, rfl⟩ := hany
    exact iff_of_true (by cases value <;> rfl) (.any value)
  · have hbound : constraint ≠ .bool true := fun h => hany ⟨true, h, rfl⟩
    cases value with
    | array items =>
        rw [admitsValue_array hbound, valueAgainst]
        · exact itemsAgainst_ok constraint context walked 0 items
        · exact hbound
    | object inner =>
        cases constraint with
        | object constraints =>
            rw [valueAgainst, object_ok, admitsValue_object, admitsObject_iff]
            simp only [members_ok]
        | array allowed =>
            rw [admitsValue_listed (by simp)]
            simp [valueAgainst]
        | bool b =>
            obtain rfl : b = false := by simpa using hbound
            refine iff_of_false (by simp [valueAgainst]) (not_admitsValue hbound ?_ ?_ ?_) <;>
              simp
        | _ =>
            refine iff_of_false (by simp [valueAgainst]) (not_admitsValue hbound ?_ ?_ ?_) <;>
              simp
    | _ =>
        cases constraint with
        | array allowed =>
            rw [admitsValue_listed (by simp)]
            simp [valueAgainst]
        | bool b =>
            obtain rfl : b = false := by simpa using hbound
            refine iff_of_false (by simp [valueAgainst]) (not_admitsValue hbound ?_ ?_ ?_) <;>
              simp
        | _ =>
            refine iff_of_false (by simp [valueAgainst]) (not_admitsValue hbound ?_ ?_ ?_) <;>
              simp

/-- The items pass exactly where each is admitted. -/
theorem itemsAgainst_ok (constraint : Json φ) (context : Context) (walked : List Segment)
    (position : Nat) (items : List (Json φ)) :
    itemsAgainst constraint context walked position items = .ok () ↔
      ∀ item ∈ items, AdmitsValue Live context constraint item := by
  cases items with
  | nil => simp [itemsAgainst]
  | cons item rest =>
      rw [itemsAgainst, then_ok, List.forall_mem_cons,
        valueAgainst_ok constraint context (walked ++ [Segment.index position]) item,
        itemsAgainst_ok constraint context walked (position + 1) rest]

end

/-! ## Visiting fewer objects well -/

mutual

/-- What is admitted visiting objects that meet a condition is admitted visiting
objects that meet a weaker one. -/
theorem AdmitsObject.mono {good better : Json.Map φ → Json.Map φ → Prop}
    (hweaker : ∀ document constraints, good document constraints →
      better document constraints)
    {context : Context} {constraints document : Json.Map φ}
    (hadmits : AdmitsObject good context constraints document) :
    AdmitsObject better context constraints document :=
  match hadmits with
  | .laid hgood hlays hmembers =>
      .laid (hweaker _ _ hgood) hlays fun member hmem => (hmembers member hmem).mono hweaker

theorem AdmitsMember.mono {good better : Json.Map φ → Json.Map φ → Prop}
    (hweaker : ∀ document constraints, good document constraints →
      better document constraints)
    {context : Context} {r : Resolution φ} {kind : Option String} {member : String × Json φ}
    (hadmits : AdmitsMember good context r kind member) :
    AdmitsMember better context r kind member :=
  match hadmits with
  | .null name => .null name
  | .selector value hconsumed => .selector value hconsumed
  | .plain hfree hrequired hplain => .plain hfree hrequired hplain
  | .holding hfree hrequired hvalue => .holding hfree hrequired (hvalue.mono hweaker)
  | .constrained hconstraint hvalue => .constrained hconstraint (hvalue.mono hweaker)

theorem AdmitsValue.mono {good better : Json.Map φ → Json.Map φ → Prop}
    (hweaker : ∀ document constraints, good document constraints →
      better document constraints)
    {context : Context} {constraint value : Json φ}
    (hadmits : AdmitsValue good context constraint value) :
    AdmitsValue better context constraint value :=
  match hadmits with
  | .any value => .any value
  | .items hitems => .items fun item hmem => (hitems item hmem).mono hweaker
  | .object hobject => .object (hobject.mono hweaker)
  | .listed hplain hlisted => .listed hplain hlisted

end

/-! ## The whole document -/

/-- The mirror admits a document. -/
def Admits (document capabilities : Json.Map φ) : Prop :=
  AdmitsObject (fun _ _ => True) .document capabilities document

/-- The mirror admits a document by a way of taking keys that visits live
objects only. -/
def AdmitsLive (document capabilities : Json.Map φ) : Prop :=
  AdmitsObject Live .document capabilities document

/-- The checker accepts exactly what is admitted visiting live objects only. -/
theorem check_ok (document capabilities : Json.Map φ) :
    check document capabilities = .ok () ↔ AdmitsLive document capabilities := by
  have hobject : check document capabilities = .ok () ↔
      object document capabilities [] (fun r =>
        members r .document (kindOf document) [] document) = .ok () := by
    unfold check
    rcases object document capabilities [] (fun r =>
      members r .document (kindOf document) [] document) with fault | ⟨⟩
    · simp
    · simp
  rw [hobject, object_ok, AdmitsLive, admitsObject_iff]
  simp only [members_ok]

/-- What is admitted visiting live objects only is admitted. -/
theorem AdmitsLive.admits {document capabilities : Json.Map φ}
    (hadmits : AdmitsLive document capabilities) : Admits document capabilities :=
  AdmitsObject.mono (fun _ _ _ => trivial) hadmits

/-- The checker and the mirror agree on a document exactly where the mirror,
admitting it, admits it visiting live objects only. -/
theorem check_agrees_iff (document capabilities : Json.Map φ) :
    (check document capabilities = .ok () ↔ Admits document capabilities) ↔
      (Admits document capabilities → AdmitsLive document capabilities) := by
  rw [check_ok]
  constructor
  · intro hagree
    exact hagree.mpr
  · intro hlive
    exact ⟨AdmitsLive.admits, hlive⟩

/-! ### A radio without the band asked for -/

/-- The bands one radio keys: the lower alone. -/
def lowerBand : Json.Map φ := [("band", .object [("2ghz", .object [])])]

/-- The bands another radio keys: both. -/
def bothBands : Json.Map φ :=
  [("band", .object [("2ghz", .object []), ("5ghz", .object [])])]

/-- The hotspot of a device with two such radios. -/
def twoRadios : Json.Map φ :=
  [("interface", .object [("wlan0", .object lowerBand), ("wlan1", .object bothBands)])]

/-- A hotspot on the upper band, on whichever radio. -/
def upperHotspot : Json.Map φ :=
  [("band", .string "5ghz"), ("enabled", .bool true), ("passphrase", .string "p"),
    ("ssid", .string "s")]

/-- A document of that hotspot and no candidates. -/
def upperDocument : Json.Map φ :=
  [("attachments", .array []), ("hotspot", .object upperHotspot)]

/-- The second radio's upper band admits the hotspot. -/
theorem admits_upperHotspot :
    AdmitsObject (φ := Nat) (fun _ _ => True) .hotspot twoRadios upperHotspot := by
  let unresolved : Resolution Nat := ⟨twoRadios, []⟩
  have hinterface : Takes (φ := Nat) upperHotspot "interface"
      [("wlan0", .object lowerBand), ("wlan1", .object bothBands)] bothBands :=
    ⟨"wlan1", by simp⟩
  have hband : Takes (φ := Nat) upperHotspot "band"
      [("2ghz", .object []), ("5ghz", .object [])] [] := rfl
  have hbranch : Branch upperHotspot unresolved
      ((unresolved.under "interface" bothBands).under "band" []) :=
    .under rfl hinterface (.under rfl hband (.here _))
  refine .laid trivial ⟨hbranch, rfl⟩ fun member hmem => ?_
  simp only [upperHotspot, List.mem_cons, List.not_mem_nil, or_false] at hmem
  rcases hmem with rfl | rfl | rfl | rfl
  · exact .selector _ (by decide)
  · exact .plain rfl rfl rfl
  · exact .plain rfl rfl rfl
  · exact .plain rfl rfl rfl

/-- The first radio's bands, which the document need not take, have the checker
refuse the document the second radio admits. -/
theorem check_refuses_upperDocument :
    ¬ (check (φ := Nat) upperDocument [("hotspot", .object twoRadios)] = .ok () ↔
      Admits (φ := Nat) upperDocument [("hotspot", .object twoRadios)]) := by
  have hrefused : check (φ := Nat) upperDocument [("hotspot", .object twoRadios)] =
      .error ⟨"$['hotspot']['band']", "\"5ghz\" is not a supported `band`"⟩ :=
    rfl
  have hadmits : Admits (φ := Nat) upperDocument [("hotspot", .object twoRadios)] := by
    refine .laid trivial ⟨.here _, rfl⟩ fun member hmem => ?_
    simp only [upperDocument, List.mem_cons, List.not_mem_nil, or_false] at hmem
    rcases hmem with rfl | rfl
    · exact .plain rfl rfl rfl
    · exact .constrained rfl (.object admits_upperHotspot)
  intro hagree
  rw [hagree.mpr hadmits] at hrefused
  cases hrefused

end Bliti.Channel.Capabilities
