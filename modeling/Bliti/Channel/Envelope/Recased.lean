import Bliti.Channel.Envelope.Faults

/-!
# The message envelope - names in another case

A message whose member names are put wholly in lower or wholly in upper case, each as it
likes.  It is the same message in lower case, and what reading makes of it differs only where
a name in upper case is one that does not come back.
-/

namespace Bliti.Channel.Envelope

variable {φ T : Type}

/-! ## Names in another case -/

mutual

/-- A message with each of its member names in lower or in upper case. -/
inductive Raw.Recased : Raw φ → Raw φ → Prop
  | object {entries others : List (String × Raw φ)} (hentries : EntriesRecased entries others) :
      Raw.Recased (.object entries) (.object others)
  | array {items others : List (Raw φ)} (hitems : ItemsRecased items others) :
      Raw.Recased (.array items) (.array others)
  | other (value : Json φ) (hscalar : value.isScalar = true) :
      Raw.Recased (.other value hscalar) (.other value hscalar)

/-- Entries with their names in lower or in upper case. -/
inductive EntriesRecased : List (String × Raw φ) → List (String × Raw φ) → Prop
  | nil : EntriesRecased [] []
  | cons {name other : String} {raw again : Raw φ} {rest others : List (String × Raw φ)}
      (hname : other = name.toLower ∨ other = name.toUpper) (hraw : raw.Recased again)
      (hrest : EntriesRecased rest others) :
      EntriesRecased ((name, raw) :: rest) ((other, again) :: others)

/-- Items with the names below them in lower or in upper case. -/
inductive ItemsRecased : List (Raw φ) → List (Raw φ) → Prop
  | nil : ItemsRecased [] []
  | cons {item other : Raw φ} {rest others : List (Raw φ)} (hitem : item.Recased other)
      (hrest : ItemsRecased rest others) : ItemsRecased (item :: rest) (other :: others)

end

/-- A well-formed name is one in upper case, of the same lower case. -/
theorem classify_toUpper {name : String} (hname : (classify name).isSome = true) :
    (classify name.toUpper).isSome = true ∧ name.toUpper.toLower = name.toLower := by
  obtain ⟨critical, hname⟩ := Option.isSome_iff_exists.mp hname
  obtain ⟨hnil, hall, -, -⟩ := classify_eq_some.mp hname
  have hlist : name.toUpper.toList = name.toList.map Char.toUpper := String.toList_map
  constructor
  · rw [Option.isSome_iff_exists]
    refine ⟨_, classify_eq_some.mpr ⟨?_, ?_, rfl, by simp [any_isLower_toUpper]⟩⟩
    · rw [hlist]
      simpa using hnil
    · rw [hlist]
      intro c hc
      obtain ⟨c', hc', rfl⟩ := List.mem_map.mp hc
      exact toUpper_ok (hall c' hc')
  · apply String.toList_inj.mp
    have hback : name.toUpper.toLower.toList = name.toUpper.toList.map Char.toLower :=
      String.toList_map
    have hdown : name.toLower.toList = name.toList.map Char.toLower := String.toList_map
    rw [hback, hlist, hdown, List.map_map]
    apply List.map_congr_left
    intro c hc
    exact Char.toLower_toUpper_eq_toLower c

/-- A well-formed name is one in lower case, of the same lower case. -/
theorem classify_toLower {name : String} (hname : (classify name).isSome = true) :
    (classify name.toLower).isSome = true ∧ name.toLower.toLower = name.toLower := by
  obtain ⟨critical, hname⟩ := Option.isSome_iff_exists.mp hname
  have hplain := plain_toLower hname
  exact ⟨Option.isSome_iff_exists.mpr ⟨false, hplain⟩, toLower_of_plain hplain⟩

/-- A well-formed name is one in another case, of the same lower case. -/
theorem classify_recased {name other : String} (hname : (classify name).isSome = true)
    (hother : other = name.toLower ∨ other = name.toUpper) :
    (classify other).isSome = true ∧ other.toLower = name.toLower := by
  rcases hother with rfl | rfl
  · exact classify_toLower hname
  · exact classify_toUpper hname

mutual

/-- A message of well-formed names has them in another case, and is the same in lower case. -/
theorem recased_value {raw other : Raw φ} (hrecased : raw.Recased other)
    (hnames : raw.WellNamed) : other.WellNamed ∧ other.value = raw.value := by
  cases hrecased with
  | object hentries =>
      rw [Raw.WellNamed] at hnames ⊢
      obtain ⟨hothers, hlowered, hvalues⟩ := recased_entries hentries hnames.2
      rw [Raw.value, Raw.value, hvalues, hlowered]
      exact ⟨⟨hnames.1, hothers⟩, rfl⟩
  | array hitems =>
      rw [Raw.WellNamed] at hnames ⊢
      obtain ⟨hothers, hvalues⟩ := recased_items hitems hnames
      rw [Raw.value, Raw.value, hvalues]
      exact ⟨hothers, rfl⟩
  | other value hscalar => exact ⟨hnames, rfl⟩

theorem recased_entries {entries others : List (String × Raw φ)}
    (hrecased : EntriesRecased entries others) (hnames : EntriesWellNamed entries) :
    EntriesWellNamed others ∧
      others.map (fun entry => entry.1.toLower) = entries.map (fun entry => entry.1.toLower) ∧
      entriesValue others = entriesValue entries := by
  cases hrecased with
  | nil => exact ⟨hnames, rfl, rfl⟩
  | cons hname hraw hrest =>
      rw [EntriesWellNamed, EntryWellNamed] at hnames ⊢
      obtain ⟨⟨hfirst, hbelow⟩, hlater⟩ := hnames
      obtain ⟨hother, hlowered⟩ := classify_recased hfirst hname
      obtain ⟨hbelow, hvalue⟩ := recased_value hraw hbelow
      obtain ⟨hothers, hnames, hvalues⟩ := recased_entries hrest hlater
      refine ⟨⟨⟨hother, hbelow⟩, hothers⟩, ?_, ?_⟩
      · rw [List.map_cons, List.map_cons, hlowered, hnames]
      · rw [entriesValue, entriesValue, entryValue, entryValue, hlowered, hvalue, hvalues]

theorem recased_items {items others : List (Raw φ)} (hrecased : ItemsRecased items others)
    (hnames : ItemsWellNamed items) :
    ItemsWellNamed others ∧ itemsValue others = itemsValue items := by
  cases hrecased with
  | nil => exact ⟨hnames, rfl⟩
  | cons hitem hrest =>
      rw [ItemsWellNamed] at hnames ⊢
      obtain ⟨hother, hvalue⟩ := recased_value hitem hnames.1
      obtain ⟨hothers, hvalues⟩ := recased_items hrest hnames.2
      rw [itemsValue, itemsValue, hvalue, hvalues]
      exact ⟨⟨hother, hothers⟩, rfl⟩

end

/-! ## A message in lower case -/

mutual

/-- A message in lower case has its objects in key order. -/
theorem value_ascending (raw : Raw φ) : raw.value.EveryObject Json.Ascending := by
  cases raw with
  | object entries =>
      rw [Raw.value, Json.everyObject_object]
      refine ⟨Json.ascending_collect _, fun member hmember => ?_⟩
      exact entriesValue_ascending entries member (Json.mem_collect hmember)
  | array items =>
      rw [Raw.value, Json.everyObject_array]
      exact itemsValue_ascending items
  | other value hscalar =>
      rw [Raw.value]
      exact everyObject_scalar hscalar

theorem entriesValue_ascending (entries : List (String × Raw φ)) :
    ∀ member ∈ entriesValue entries, member.2.EveryObject Json.Ascending := by
  cases entries with
  | nil => simp [entriesValue]
  | cons entry rest =>
      rw [entriesValue, List.forall_mem_cons]
      exact ⟨entryValue_ascending entry, entriesValue_ascending rest⟩

theorem entryValue_ascending (entry : String × Raw φ) :
    (entryValue entry).2.EveryObject Json.Ascending := by
  obtain ⟨name, raw⟩ := entry
  rw [entryValue]
  exact value_ascending raw

theorem itemsValue_ascending (items : List (Raw φ)) :
    ∀ value ∈ itemsValue items, value.EveryObject Json.Ascending := by
  cases items with
  | nil => simp [itemsValue]
  | cons item rest =>
      rw [itemsValue, List.forall_mem_cons]
      exact ⟨value_ascending item, itemsValue_ascending rest⟩

end

/-! ## Messages acted on -/

variable {set : MessageSet φ T} {raw : Raw φ} {object : Json.Map φ} {typeName : String}
  {message other : T}

/-- A message of a type nothing is pinned on is acted on exactly where no name in upper case is of
a member that does not come back. -/
theorem readRaw_message_iff (hnames : raw.WellNamed) (hobject : raw.value = .object object)
    (htype : Json.get object "type" = some (.string typeName))
    (hknown : typeName ∈ set.knownTypes) (hfree : set.criticality typeName = .unconstrained)
    (hread : set.fromValue (.object object) = .ok message) :
    readRaw set raw = .ok (.message other) ↔ other = message ∧
      ∀ path ∈ raw.marks "", path ∉ collectUnknown "" ∅ (set.toValue message) (.object object) := by
  have hrefused : ((recorded ∅ (raw.marks "")).toList.filter fun path =>
        path ∈ collectUnknown "" ∅ (set.toValue message) (.object object)) = [] ↔
      ∀ path ∈ raw.marks "",
        path ∉ collectUnknown "" ∅ (set.toValue message) (.object object) := by
    simp [List.filter_eq_nil_iff, mem_recorded]
  rw [readRaw_of_wellNamed hnames, hobject, readNormalised]
  simp only [htype, knows_iff.mpr hknown, if_true]
  unfold readKnown
  simp only [hfree, checkPinned, Fallible.ok_bind, hread, Except.mapError, List.isEmpty_iff,
    hrefused]
  split
  · rename_i hclear
    simp only [pure, Except.pure, Except.ok.injEq, Reading.message.injEq]
    exact ⟨fun hsame => ⟨hsame.symm, hclear⟩, fun hsame => hsame.1.symm⟩
  · rename_i hrefuses
    apply iff_of_false
    · simp [pure, Except.pure]
    · exact fun hsame => hrefuses hsame.2

end Bliti.Channel.Envelope
