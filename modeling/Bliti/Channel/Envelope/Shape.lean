import Bliti.Channel.Envelope.Kept

/-!
# The message envelope - the shape of an object

What an object is to carry, member by member: whether each is to be there, whether null
stands for its absence, and what it is to hold.  What a reader takes of an object and what
it writes again are told member by member, and so is what does not come back.
-/

namespace Bliti.Channel.Envelope

variable {φ C : Type}

/-! ## What does not come back -/

mutual

/-- What does not come back of a value is collected beside what was. -/
theorem mem_collectUnknown_out (value : Json φ) {path p : String} {out : Paths} {round : Json φ} :
    p ∈ collectUnknown path out round value ↔ p ∈ out ∨ p ∈ collectUnknown path ∅ round value := by
  cases value with
  | array items =>
      cases round with
      | array rounds =>
          rw [collectUnknown, collectUnknown]
          exact mem_unknownItems_out items
      | _ => simp [collectUnknown]
  | object members =>
      cases round with
      | object round =>
          rw [collectUnknown, collectUnknown]
          exact mem_unknownMembers_out members
      | _ => simp [collectUnknown]
  | _ => simp [collectUnknown]

theorem mem_unknownMembers_out (members : Json.Map φ) {path p : String} {out : Paths}
    {round : Json.Map φ} :
    p ∈ unknownMembers path out round members ↔
      p ∈ out ∨ p ∈ unknownMembers path ∅ round members := by
  cases members with
  | nil => simp [unknownMembers]
  | cons member rest =>
      have hrest : p ∈ unknownMembers path (unknownMember path ∅ round member) round rest ↔
          p ∈ unknownMember path ∅ round member ∨ p ∈ unknownMembers path ∅ round rest :=
        mem_unknownMembers_out rest
      rw [unknownMembers, unknownMembers, mem_unknownMembers_out rest, hrest,
        mem_unknownMember_out member, or_assoc]

theorem mem_unknownMember_out (member : String × Json φ) {path p : String} {out : Paths}
    {round : Json.Map φ} :
    p ∈ unknownMember path out round member ↔ p ∈ out ∨ p ∈ unknownMember path ∅ round member := by
  obtain ⟨name, value⟩ := member
  rw [unknownMember, unknownMember]
  split
  · simp [Std.ExtTreeSet.mem_insert, or_comm]
  · exact mem_collectUnknown_out value

theorem mem_unknownItems_out (items : List (Json φ)) {path p : String} {out : Paths}
    {rounds : List (Json φ)} {index : Nat} :
    p ∈ unknownItems path out rounds index items ↔
      p ∈ out ∨ p ∈ unknownItems path ∅ rounds index items := by
  cases items with
  | nil => simp [unknownItems]
  | cons item rest =>
      rw [unknownItems, unknownItems]
      split
      · exact mem_unknownItems_out rest
      · rw [mem_unknownItems_out rest, mem_collectUnknown_out item, or_assoc,
          ← mem_unknownItems_out rest]

end

/-- What does not come back of an object: the members left out, and what does not come back of
the others. -/
theorem mem_unknownMembers {path p : String} {round members : Json.Map φ} :
    p ∈ unknownMembers path ∅ round members ↔ ∃ member ∈ members,
      (Json.get round member.1 = none ∧ p = below path member.1) ∨
        ∃ found, Json.get round member.1 = some found ∧
          p ∈ collectUnknown (below path member.1) ∅ found member.2 := by
  induction members with
  | nil => simp [unknownMembers]
  | cons member rest ih =>
      rw [unknownMembers, mem_unknownMembers_out, ih, List.exists_mem_cons_iff]
      apply or_congr_left
      obtain ⟨name, value⟩ := member
      rw [unknownMember]
      cases hround : Json.get round name with
      | none =>
          rw [Std.ExtTreeSet.mem_insert, Std.compare_eq_iff_eq, eq_comm]
          simp
      | some found => simp

/-- What does not come back of an array is that of its items that do. -/
theorem mem_unknownItems {path p : String} {rounds items : List (Json φ)} {index : Nat} :
    p ∈ unknownItems path ∅ rounds index items ↔ ∃ i item found, items[i]? = some item ∧
      rounds[index + i]? = some found ∧
      p ∈ collectUnknown (below path (toString (index + i))) ∅ found item := by
  induction items generalizing index with
  | nil => simp [unknownItems]
  | cons item rest ih =>
      have hlater : p ∈ unknownItems path ∅ rounds (index + 1) rest ↔ _ := ih
      simp only [Nat.add_assoc, Nat.add_comm 1] at hlater
      rw [unknownItems, ← Nat.or_exists_add_one]
      simp only [List.getElem?_cons_zero, List.getElem?_cons_succ, Nat.add_zero, ← hlater]
      cases hround : rounds[index]? with
      | none => simp
      | some found =>
          rw [mem_unknownItems_out]
          simp

/-! ## The members of an object -/

/-- Whether a member is to be there: it is, it may be left out or null alike, or it may be left
out and null is as good as any value. -/
inductive Presence where
  | required
  | optional
  | free
deriving DecidableEq, Repr

/-- A member an object is to carry: its name, whether it is to be there, and what it holds. -/
structure Member (C : Type) where
  name : String
  presence : Presence
  content : C

namespace Member

/-- A member is sent as null where it may as well be left out. -/
def null (member : Member C) (value : Json φ) : Bool :=
  member.presence == .optional && value.isNull

/-- A member is met where it holds what it is to, or may be left out and is. -/
def met (takes : C → Json φ → Bool) (object : Json.Map φ) (member : Member C) : Bool :=
  match Json.get object member.name with
  | none => member.presence != .required
  | some value => member.null value || takes member.content value

/-- What is written again of a member: nothing where it was null for left out, and else what
follows from what it held. -/
def Follows (follows : C → Json φ → Json φ → Prop) (object : Json.Map φ) (member : Member C)
    (written : Option (Json φ)) : Prop :=
  ∀ value, Json.get object member.name = some value →
    if member.null value = true then written = none
    else ∃ again, written = some again ∧ follows member.content value again

end Member

/-- The members of an object are among some, and so are those below them. -/
def Defined (definedBelow : C → Json φ → Prop) (members : List (Member C))
    (object : Json.Map φ) : Prop :=
  ∀ entry ∈ object, entry.1 ∈ members.map Member.name ∧
    ∀ member ∈ members, member.name = entry.1 → definedBelow member.content entry.2

/-- The paths of the members of an object sent as null for left out, and of those below. -/
def nulls (nullsBelow : String → C → Json φ → List String) (path : String)
    (members : List (Member C)) (object : Json.Map φ) : List String :=
  members.flatMap fun member =>
    match Json.get object member.name with
    | none => []
    | some value =>
        if member.null value = true then [below path member.name]
        else nullsBelow (below path member.name) member.content value

/-- What does not come back of an object whose members are all among some, and written again as
they follow, are those sent as null for left out. -/
theorem mem_collectUnknown_object {definedBelow : C → Json φ → Prop}
    {nullsBelow : String → C → Json φ → List String} {follows : C → Json φ → Json φ → Prop}
    {members : List (Member C)} {path p : String} {round object : Json.Map φ}
    (hobject : (object.map Prod.fst).Nodup) (hdefined : Defined definedBelow members object)
    (hfollows : ∀ member ∈ members, member.Follows follows object (Json.get round member.name))
    (hbelow : ∀ member ∈ members, ∀ value again path, (member.name, value) ∈ object →
      definedBelow member.content value → follows member.content value again →
      (p ∈ collectUnknown path ∅ again value ↔ p ∈ nullsBelow path member.content value)) :
    p ∈ collectUnknown path ∅ (.object round) (.object object) ↔
      p ∈ nulls nullsBelow path members object := by
  rw [collectUnknown, mem_unknownMembers, nulls, List.mem_flatMap]
  constructor
  · intro hlost
    obtain ⟨⟨name, value⟩, hentry, hlost⟩ := hlost
    obtain ⟨hamong, hdefines⟩ := hdefined _ hentry
    obtain ⟨member, hmember, rfl⟩ := List.mem_map.mp hamong
    have hget := Json.get_of_mem hobject hentry
    have hwritten := hfollows member hmember value hget
    refine ⟨member, hmember, ?_⟩
    simp only [hget]
    by_cases hnull : member.null value = true
    · rw [if_pos hnull] at hwritten ⊢
      rw [hwritten] at hlost
      simpa using hlost
    · rw [if_neg hnull] at hwritten ⊢
      obtain ⟨again, hwritten, hagain⟩ := hwritten
      rw [hwritten] at hlost
      have hdefines := hdefines member hmember rfl
      exact (hbelow member hmember value again _ hentry hdefines hagain).mp (by simpa using hlost)
  · intro hnull
    obtain ⟨member, hmember, hnull⟩ := hnull
    split at hnull
    · cases hnull
    · rename_i value hget
      have hentry := Json.mem_of_get hget
      have hwritten := hfollows member hmember value hget
      refine ⟨_, hentry, ?_⟩
      by_cases hsent : member.null value = true
      · rw [if_pos hsent] at hwritten hnull
        exact .inl ⟨hwritten, by simpa using hnull⟩
      · rw [if_neg hsent] at hwritten hnull
        obtain ⟨again, hwritten, hagain⟩ := hwritten
        have hdefines := (hdefined _ hentry).2 _ hmember rfl
        exact .inr ⟨again, hwritten, (hbelow _ hmember value again _ hentry hdefines hagain).mpr hnull⟩

/-! ## Readers -/

/-- A reading of one member of an object: it succeeds where the member is met, and what it reads
is written again as it follows. -/
structure Reads {α : Type} (takes : C → Json φ → Bool) (follows : C → Json φ → Json φ → Prop)
    (object : Json.Map φ) (member : Member C) (write : α → Option (Json φ)) (read : α → Prop) :
    Prop where
  succeeds : (∃ a, read a) ↔ member.met takes object = true
  follows : ∀ a, read a → member.Follows follows object (write a)

/-- A reading of the rest of an object, some of its members written: it succeeds where the others
are met, and what it reads is written with each of them as it follows. -/
structure Taken {β : Type} (takes : C → Json φ → Bool) (follows : C → Json φ → Json φ → Prop)
    (object : Json.Map φ) (write : β → List (String × Option (Json φ)))
    (members : List (Member C)) (before : List (String × Option (Json φ))) (read : β → Prop) :
    Prop where
  succeeds : (∃ b, read b) ↔ ∀ member ∈ members, member.met takes object = true
  follows : ∀ b, read b → ∃ after, write b = before ++ after ∧
    List.Forall₂ (fun member written => written.1 = member.name ∧
      member.Follows follows object written.2) members after

namespace Taken

variable {α β : Type} {takes : C → Json φ → Bool} {follows : C → Json φ → Json φ → Prop}
  {object : Json.Map φ} {write : β → List (String × Option (Json φ))} {member : Member C}
  {members : List (Member C)} {before : List (String × Option (Json φ))}
  {writeOne : α → Option (Json φ)}

/-- Nothing is left to read. -/
theorem nil {b : β} (hwritten : write b = before) :
    Taken takes follows object write [] before (b = ·) where
  succeeds := by simp
  follows := by
    rintro _ rfl
    exact ⟨[], by simpa using hwritten, .nil⟩

/-- One member is read, then the others. -/
theorem cons {read : α → Prop} {later : α → β → Prop}
    (hread : Reads takes follows object member writeOne read)
    (hlater : ∀ a, read a → Taken takes follows object write members
      (before ++ [(member.name, writeOne a)]) (later a)) :
    Taken takes follows object write (member :: members) before
      (fun b => ∃ a, read a ∧ later a b) where
  succeeds := by
    rw [List.forall_mem_cons, ← hread.succeeds]
    constructor
    · intro hall
      obtain ⟨b, a, hone, hrest⟩ := hall
      exact ⟨⟨a, hone⟩, (hlater a hone).succeeds.mp ⟨b, hrest⟩⟩
    · intro hall
      obtain ⟨⟨a, hone⟩, hrest⟩ := hall
      obtain ⟨b, hb⟩ := (hlater a hone).succeeds.mpr hrest
      exact ⟨b, a, hone, hb⟩
  follows := by
    intro b hb
    obtain ⟨a, hone, hrest⟩ := hb
    obtain ⟨after, hwritten, hall⟩ := (hlater a hone).follows b hrest
    refine ⟨(member.name, writeOne a) :: after, ?_, .cons ⟨rfl, hread.follows a hone⟩ hall⟩
    rw [hwritten, List.append_assoc, List.singleton_append]

/-- One member is read, then the others, failing with a reason. -/
theorem bind {ε : Type} {x : Except ε α} {f : α → Except ε β}
    (hread : Reads takes follows object member writeOne (x = .ok ·))
    (hlater : ∀ a, Taken takes follows object write members
      (before ++ [(member.name, writeOne a)]) (f a = .ok ·)) :
    Taken takes follows object write (member :: members) before (x >>= f = .ok ·) := by
  simp only [Fallible.bind_ok]
  exact cons hread fun a _ => hlater a

/-- What is read is returned. -/
theorem pure {ε : Type} {b : β} (hwritten : write b = before) :
    Taken takes follows object write [] before ((Pure.pure b : Except ε β) = .ok ·) := by
  simp only [Fallible.pure_ok]
  exact nil hwritten

/-- One member is read, then the others, where they can be. -/
theorem bindSome {x : Option α} {f : α → Option β}
    (hread : Reads takes follows object member writeOne (x = some ·))
    (hlater : ∀ a, Taken takes follows object write members
      (before ++ [(member.name, writeOne a)]) (f a = some ·)) :
    Taken takes follows object write (member :: members) before (x.bind f = some ·) := by
  simp only [Option.bind_eq_some_iff]
  exact cons hread fun a _ => hlater a

/-- What is read is there. -/
theorem pureSome {b : β} (hwritten : write b = before) :
    Taken takes follows object write [] before ((Pure.pure b : Option β) = some ·) := by
  simp only [Option.pure_def, Option.some.injEq]
  exact nil hwritten

/-- One member is what it is found to be, and the others are read. -/
theorem given {a : α} {read : β → Prop}
    (hread : Reads takes follows object member writeOne (a = ·))
    (hlater : Taken takes follows object write members
      (before ++ [(member.name, writeOne a)]) read) :
    Taken takes follows object write (member :: members) before read := by
  have hall : Taken takes follows object write (member :: members) before
      (fun b => ∃ found, a = found ∧ read b) :=
    cons hread fun found hfound => hfound ▸ hlater
  simpa using hall

/-- What is read is written as each member follows, where each is found so in an object. -/
theorem get_follows {read : β → Prop} (htaken : Taken takes follows object write members [] read)
    {b : β} (hb : read b) {round : Json.Map φ}
    (hround : ∀ written ∈ write b, Json.get round written.1 = written.2) :
    ∀ member ∈ members, member.Follows follows object (Json.get round member.name) := by
  obtain ⟨after, hwritten, hall⟩ := htaken.follows b hb
  rw [List.nil_append] at hwritten
  rw [hwritten] at hround
  clear hwritten htaken
  induction hall with
  | nil => simp
  | cons hone _ ih =>
      rw [List.forall_mem_cons] at hround ⊢
      obtain ⟨hfirst, hrest⟩ := hround
      rw [hone.1] at hfirst
      exact ⟨hfirst ▸ hone.2, ih hrest⟩

end Taken

section

variable {α : Type} {takes : C → Json φ → Bool} {follows : C → Json φ → Json φ → Prop}
  {object : Json.Map φ} {name : String} {content : C} {write : α → Json φ}

/-- A required member is read where it is there and has a value. -/
theorem reads_required (value : Json φ → Option α) {read : α → Prop}
    (hread : ∀ a, read a ↔ (Json.get object name).bind value = some a)
    (htakes : ∀ held, takes content held = (value held).isSome)
    (hfollows : ∀ held a, value held = some a → follows content held (write a)) :
    Reads takes follows object ⟨name, .required, content⟩ (some ∘ write) read where
  succeeds := by
    simp only [hread, Member.met, Member.null]
    cases hget : Json.get object name with
    | none => simp
    | some held =>
        rw [Option.bind_some, ← Option.isSome_iff_exists]
        simp [htakes]
  follows := by
    intro a ha held hget
    rw [hread, hget, Option.bind_some] at ha
    exact ⟨write a, rfl, hfollows held a ha⟩

/-- A member that may be left out or null is read where it is, or has a value. -/
theorem reads_optional (value : Json φ → Option α) {read : Option α → Prop}
    (hread : ∀ found, read found ↔
      match (Json.get object name).filter (fun held => !held.isNull) with
      | none => none = found
      | some held => ∃ a, value held = some a ∧ some a = found)
    (htakes : ∀ held, takes content held = (value held).isSome)
    (hfollows : ∀ held a, value held = some a → follows content held (write a)) :
    Reads takes follows object ⟨name, .optional, content⟩ (Option.map write) read where
  succeeds := by
    simp only [hread, Member.met, Member.null]
    cases hget : Json.get object name with
    | none => simp
    | some held =>
        cases hnull : held.isNull with
        | true => simp [Option.filter, hnull]
        | false => simp [Option.filter, hnull, htakes, Option.isSome_iff_exists]
  follows := by
    intro found hfound held hget
    rw [hread, hget] at hfound
    cases hnull : held.isNull with
    | true =>
        have hnone : none = found := by
          simpa [Option.filter, hnull] using hfound
        simp [Member.null, hnull, ← hnone]
    | false =>
        have hsome : ∃ a, value held = some a ∧ some a = found := by
          simpa [Option.filter, hnull] using hfound
        obtain ⟨a, ha, rfl⟩ := hsome
        simpa [Member.null, hnull] using hfollows held a ha

/-- A member that may be left out is there as it is. -/
theorem reads_free (htakes : ∀ held, takes content held = true)
    (hfollows : ∀ held, follows content held held) :
    Reads takes follows object ⟨name, .free, content⟩ id (Json.get object name = ·) where
  succeeds := by
    rw [Member.met]
    cases Json.get object name with
    | none => simp
    | some held => simp [htakes]
  follows := by
    rintro _ rfl held hget
    exact ⟨held, hget, hfollows held⟩

end

end Bliti.Channel.Envelope
