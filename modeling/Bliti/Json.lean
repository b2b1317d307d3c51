import Bliti.Text

/-!
# JSON values

The raw JSON a message carries, as `serde_json` holds it.  An object is its
members in key order.  A number is an integer or a double; what a double is, how
two of them compare and how one is written are left to a type `φ`.
-/

namespace Bliti

/-- A JSON number: an integer, or a double. -/
inductive Number (φ : Type) where
  | int (i : Int)
  | float (f : φ)
deriving BEq, ReflBEq, DecidableEq

/-- A JSON value. -/
inductive Json (φ : Type) where
  | null
  | bool (b : Bool)
  | number (n : Number φ)
  | string (s : String)
  | array (items : List (Json φ))
  | object (members : List (String × Json φ))

namespace Json

variable {φ : Type}

/-- The members of an object, each name at most once. -/
abbrev Map (φ : Type) := List (String × Json φ)

/-- The member of an object by its name. -/
def get : Map φ → String → Option (Json φ)
  | [], _ => none
  | (other, value) :: rest, name => if other = name then some value else get rest name

/-- An object with a member set: in place of the one of its name, else in key
order. -/
def insert (map : Map φ) (name : String) (value : Json φ) : Map φ :=
  match map with
  | [] => [(name, value)]
  | (other, old) :: rest =>
      if other = name then (name, value) :: rest
      else if name < other then (name, value) :: (other, old) :: rest
      else (other, old) :: insert rest name value

@[simp]
theorem get_nil (name : String) : get ([] : Map φ) name = none :=
  rfl

/-- A member of an object after one is set. -/
@[simp]
theorem get_insert (map : Map φ) (name other : String) (value : Json φ) :
    get (insert map name value) other =
      if name = other then some value else get map other := by
  induction map with
  | nil => simp [insert, get]
  | cons member rest ih =>
      obtain ⟨held, old⟩ := member
      by_cases hheld : held = name
      · by_cases hname : name = other <;> simp [insert, get, hheld, hname]
      · by_cases hbefore : name < held
        · simp [insert, get, hheld, hbefore]
        · simp only [insert, if_neg hheld, if_neg hbefore, get, ih]
          by_cases hsame : held = other
          · have hname : ¬ name = other := fun hname => hheld (hsame.trans hname.symm)
            simp [hsame, hname]
          · simp [hsame]

/-- An object with a member set where there is a value for it. -/
def insertSome (map : Map φ) (name : String) (value : Option (Json φ)) : Map φ :=
  match value with
  | some value => insert map name value
  | none => map

/-- A member of an object after one is set where there is a value for it. -/
@[simp]
theorem get_insertSome (map : Map φ) (name other : String) (value : Option (Json φ)) :
    get (insertSome map name value) other =
      if name = other then value.or (get map other) else get map other := by
  cases value with
  | none => simp [insertSome]
  | some value => simp [insertSome]

/-- An object with members set one after another, each where there is a value for it. -/
def setAll (map : Map φ) (members : List (String × Option (Json φ))) : Map φ :=
  members.foldl (fun map member => insertSome map member.1 member.2) map

/-- An object with some members set, one after another. -/
def insertAll (map : Map φ) (members : List (String × Json φ)) : Map φ :=
  members.foldl (fun map member => insert map member.1 member.2) map

/-- An object of some members, the last of each name. -/
def collect (members : List (String × Json φ)) : Map φ :=
  insertAll [] members

/-- An object has no member of a name none of its members has. -/
theorem get_eq_none {map : Map φ} {name : String} (hname : name ∉ map.map Prod.fst) :
    get map name = none := by
  induction map with
  | nil => rfl
  | cons member rest ih =>
      rw [List.map_cons, List.mem_cons, not_or] at hname
      rw [get, if_neg fun hsame => hname.1 hsame.symm]
      exact ih hname.2

/-- A member found by its name is one of the object's. -/
theorem mem_of_get {map : Map φ} {name : String} {value : Json φ}
    (hget : get map name = some value) : (name, value) ∈ map := by
  induction map with
  | nil => cases hget
  | cons member rest ih =>
      obtain ⟨other, held⟩ := member
      rw [get] at hget
      split at hget
      · rename_i hname
        cases hget
        rw [hname]
        exact List.mem_cons_self
      · exact List.mem_cons_of_mem _ (ih hget)

/-- A member of an object is found by its name, where no two share one. -/
theorem get_of_mem {map : Map φ} (hnames : (map.map Prod.fst).Nodup) {name : String}
    {value : Json φ} (hmember : (name, value) ∈ map) : get map name = some value := by
  induction map with
  | nil => cases hmember
  | cons member rest ih =>
      obtain ⟨other, held⟩ := member
      rw [List.map_cons, List.nodup_cons] at hnames
      rcases List.mem_cons.mp hmember with hfirst | hrest
      · cases hfirst
        rw [get, if_pos rfl]
      · have hother : ¬ other = name := fun hsame =>
          hnames.1 (hsame ▸ List.mem_map.mpr ⟨(name, value), hrest, rfl⟩)
        rw [get, if_neg hother]
        exact ih hnames.2 hrest

/-- A member of an object after one is set is that one or a member it had. -/
theorem mem_insert {map : Map φ} {name : String} {value : Json φ} {member : String × Json φ}
    (hmember : member ∈ insert map name value) : member = (name, value) ∨ member ∈ map := by
  induction map with
  | nil => simpa [insert] using hmember
  | cons held rest ih =>
      rw [insert] at hmember
      split at hmember
      · rcases List.mem_cons.mp hmember with hsame | hrest
        · exact .inl hsame
        · exact .inr (List.mem_cons_of_mem _ hrest)
      · split at hmember
        · rcases List.mem_cons.mp hmember with hsame | hrest
          · exact .inl hsame
          · exact .inr hrest
        · rcases List.mem_cons.mp hmember with hsame | hrest
          · exact .inr (by rw [hsame]; exact List.mem_cons_self)
          · rcases ih hrest with hnew | hold
            · exact .inl hnew
            · exact .inr (List.mem_cons_of_mem _ hold)

/-- A member of an object after some are set is one of those or a member it had. -/
theorem mem_insertAll {map : Map φ} {members : List (String × Json φ)}
    {member : String × Json φ} (hmember : member ∈ insertAll map members) :
    member ∈ members ∨ member ∈ map := by
  induction members generalizing map with
  | nil => exact .inr hmember
  | cons first rest ih =>
      rcases ih hmember with hrest | hmap
      · exact .inl (List.mem_cons_of_mem _ hrest)
      · rcases mem_insert hmap with hfirst | hheld
        · exact .inl (by rw [hfirst]; exact List.mem_cons_self)
        · exact .inr hheld

/-- What an object of some members holds is among them. -/
theorem mem_collect {members : List (String × Json φ)} {member : String × Json φ}
    (hmember : member ∈ collect members) : member ∈ members := by
  rcases mem_insertAll hmember with hin | hnil
  · exact hin
  · cases hnil

/-- Setting some members leaves those of other names. -/
theorem get_insertAll_of_not_mem {map : Map φ} {members : List (String × Json φ)} {name : String}
    (hname : name ∉ members.map Prod.fst) : get (insertAll map members) name = get map name := by
  induction members generalizing map with
  | nil => rfl
  | cons first rest ih =>
      rw [List.map_cons, List.mem_cons, not_or] at hname
      have hrest : get (insertAll map (first :: rest)) name =
          get (insert map first.1 first.2) name := ih hname.2
      rw [hrest, get_insert, if_neg fun hsame => hname.1 hsame.symm]

/-- A member set is found, where each name is set once. -/
theorem get_insertAll_of_mem {map : Map φ} {members : List (String × Json φ)} {name : String}
    {value : Json φ} (hdistinct : (members.map Prod.fst).Nodup)
    (hmember : (name, value) ∈ members) : get (insertAll map members) name = some value := by
  induction members generalizing map with
  | nil => cases hmember
  | cons first rest ih =>
      rw [List.map_cons, List.nodup_cons] at hdistinct
      rcases List.mem_cons.mp hmember with hfirst | hrest
      · cases hfirst
        have hkept : get (insertAll map ((name, value) :: rest)) name =
            get (insert map name value) name := get_insertAll_of_not_mem hdistinct.1
        rw [hkept, get_insert, if_pos rfl]
      · exact ih hdistinct.2 hrest

/-- Setting members where there are values leaves those of other names. -/
theorem get_setAll_of_not_mem {map : Map φ} {members : List (String × Option (Json φ))}
    {name : String} (hname : name ∉ members.map Prod.fst) :
    get (setAll map members) name = get map name := by
  induction members generalizing map with
  | nil => rfl
  | cons first rest ih =>
      rw [List.map_cons, List.mem_cons, not_or] at hname
      have hrest : get (setAll map (first :: rest)) name =
          get (insertSome map first.1 first.2) name := ih hname.2
      rw [hrest, get_insertSome, if_neg fun hsame => hname.1 hsame.symm]

/-- A member of a new name is found where there is a value for it, where each name is set
once. -/
theorem get_setAll_of_mem {map : Map φ} {members : List (String × Option (Json φ))}
    {name : String} {value : Option (Json φ)} (hdistinct : (members.map Prod.fst).Nodup)
    (hnew : get map name = none) (hmember : (name, value) ∈ members) :
    get (setAll map members) name = value := by
  induction members generalizing map with
  | nil => cases hmember
  | cons first rest ih =>
      rw [List.map_cons, List.nodup_cons] at hdistinct
      rcases List.mem_cons.mp hmember with hfirst | hrest
      · cases hfirst
        have hkept : get (setAll map ((name, value) :: rest)) name =
            get (insertSome map name value) name := get_setAll_of_not_mem hdistinct.1
        rw [hkept, get_insertSome, if_pos rfl, hnew, Option.or_none]
      · have hother : ¬ first.1 = name := fun hsame =>
          hdistinct.1 (hsame ▸ List.mem_map.mpr ⟨(name, value), hrest, rfl⟩)
        refine ih hdistinct.2 ?_ hrest
        rw [get_insertSome, if_neg hother, hnew]

/-- An object without a member. -/
def remove (map : Map φ) (name : String) : Map φ :=
  map.filter fun member => member.1 ≠ name

/-- A member of an object after one is taken out. -/
@[simp]
theorem get_remove (map : Map φ) (name other : String) :
    get (remove map name) other = if name = other then none else get map other := by
  induction map with
  | nil => simp [remove, get]
  | cons member rest ih =>
      obtain ⟨held, value⟩ := member
      have hrest : get (rest.filter fun member => member.1 ≠ name) other =
          if name = other then none else get rest other := ih
      by_cases hheld : held = name
      · rw [remove, List.filter_cons_of_neg (by simpa using hheld), hrest, get]
        by_cases hname : name = other
        · rw [if_pos hname, if_pos hname]
        · rw [if_neg hname, if_neg hname, if_neg fun hsame => hname (hheld.symm.trans hsame)]
      · rw [remove, List.filter_cons_of_pos (by simpa using hheld), get, get, hrest]
        by_cases hsame : held = other
        · have hname : ¬ name = other := fun hname => hheld (hsame.trans hname.symm)
          rw [if_pos hsame, if_pos hsame, if_neg hname]
        · rw [if_neg hsame, if_neg hsame]

/-- A value that is null. -/
def isNull : Json φ → Bool
  | .null => true
  | _ => false

/-- A value that is an object. -/
def isObject : Json φ → Bool
  | .object _ => true
  | _ => false

/-- A value that is neither an array nor an object. -/
def isScalar : Json φ → Bool
  | .array _ => false
  | .object _ => false
  | _ => true

/-- The text of a string. -/
def asStr : Json φ → Option String
  | .string s => some s
  | _ => none

/-- The members of an object. -/
def asObject : Json φ → Option (Map φ)
  | .object members => some members
  | _ => none

/-! ## Equality -/

mutual

/-- Whether two values are equal, doubles compared as `φ` compares them. -/
def beq [BEq φ] : Json φ → Json φ → Bool
  | .null, .null => true
  | .bool a, .bool b => a == b
  | .number a, .number b => a == b
  | .string a, .string b => a == b
  | .array as, .array bs => beqItems as bs
  | .object as, .object bs => beqMembers as bs
  | _, _ => false
termination_by structural value => value

/-- Whether two arrays are equal item by item. -/
def beqItems [BEq φ] : List (Json φ) → List (Json φ) → Bool
  | [], [] => true
  | a :: as, b :: bs => beq a b && beqItems as bs
  | _, _ => false
termination_by structural items => items

/-- Whether two objects are equal member by member. -/
def beqMembers [BEq φ] : Map φ → Map φ → Bool
  | [], [] => true
  | a :: as, b :: bs => beqMember a b && beqMembers as bs
  | _, _ => false
termination_by structural members => members

/-- Whether two members are equal. -/
def beqMember [BEq φ] : String × Json φ → String × Json φ → Bool
  | (name, a), (other, b) => name == other && beq a b
termination_by structural member => member

end

instance [BEq φ] : BEq (Json φ) := ⟨beq⟩

mutual

/-- A value is equal to itself, where every double is. -/
theorem beq_self [BEq φ] [ReflBEq φ] (value : Json φ) : beq value value = true := by
  cases value with
  | null => rfl
  | bool b => simp [beq]
  | number n => cases n <;> simp [beq]
  | string s => simp [beq]
  | array items => simpa [beq] using beqItems_self items
  | object members => simpa [beq] using beqMembers_self members

theorem beqItems_self [BEq φ] [ReflBEq φ] (items : List (Json φ)) :
    beqItems items items = true := by
  cases items with
  | nil => rfl
  | cons item rest => simp [beqItems, beq_self item, beqItems_self rest]

theorem beqMembers_self [BEq φ] [ReflBEq φ] (members : Map φ) :
    beqMembers members members = true := by
  cases members with
  | nil => rfl
  | cons member rest =>
      obtain ⟨name, value⟩ := member
      simp [beqMembers, beqMember, beq_self value, beqMembers_self rest]

end

instance [BEq φ] [ReflBEq φ] : ReflBEq (Json φ) := ⟨beq_self _⟩

/-! ## Text -/

/-- A character as a JSON string escapes it. -/
def textChar (c : Char) : String :=
  match c with
  | '"' => "\\\""
  | '\\' => "\\\\"
  | '\n' => "\\n"
  | '\r' => "\\r"
  | '\t' => "\\t"
  | c =>
      if c.toNat = 0x8 then "\\b"
      else if c.toNat = 0xc then "\\f"
      else if c.toNat < 0x20 then "\\u" ++ Text.hexPadded 4 c.toNat
      else c.toString

/-- A string as JSON writes it. -/
def textString (s : String) : String :=
  "\"" ++ String.join (s.toList.map textChar) ++ "\""

/-- A number as JSON writes it. -/
def textNumber [ToString φ] : Number φ → String
  | .int i => toString i
  | .float f => toString f

mutual

/-- A value as it is written without spaces. -/
def text [ToString φ] : Json φ → String
  | .null => "null"
  | .bool b => toString b
  | .number n => textNumber n
  | .string s => textString s
  | .array items => "[" ++ ",".intercalate (textItems items) ++ "]"
  | .object members => "\x7b" ++ ",".intercalate (textMembers members) ++ "\x7d"
termination_by structural value => value

/-- The items of an array as they are written. -/
def textItems [ToString φ] : List (Json φ) → List String
  | [] => []
  | item :: rest => text item :: textItems rest
termination_by structural items => items

/-- The members of an object as they are written. -/
def textMembers [ToString φ] : Map φ → List String
  | [] => []
  | member :: rest => textMember member :: textMembers rest
termination_by structural members => members

/-- One member as it is written. -/
def textMember [ToString φ] : String × Json φ → String
  | (name, value) => textString name ++ ":" ++ text value
termination_by structural member => member

end

end Json

end Bliti
