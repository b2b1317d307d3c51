import Bliti.Channel.Config.Parts

/-!
# The network configuration document - where a fault is told

What a document is refused for is told at the path of the part it is found in: a candidate's
at the candidate, the hotspot's at the hotspot.  Paths into different parts are different
texts.
-/

namespace Bliti.Channel.Config

variable {φ α β : Type}

/-! ## Paths -/

/-- A path is written segment by segment. -/
theorem toList_path (segments : List Segment) :
    (path segments).toList = '$' :: segments.flatMap fun segment => segment.text.toList := by
  have hfold (out : String) :
      (segments.foldl (fun out segment => out ++ segment.text) out).toList =
        out.toList ++ segments.flatMap fun segment => segment.text.toList := by
    induction segments generalizing out with
    | nil => simp
    | cons segment rest ih =>
        rw [List.foldl_cons, ih, String.toList_append, List.flatMap_cons, List.append_assoc]
  rw [path, hfold]
  rfl

/-- A path that begins as another names what comes next. -/
theorem path_cons_inj {segment : Segment} {one other : List Segment}
    (hsame : path (segment :: one) = path (segment :: other)) :
    (one.flatMap fun segment => segment.text.toList) =
      other.flatMap fun segment => segment.text.toList := by
  have hlist := congrArg String.toList hsame
  rw [toList_path, toList_path, List.flatMap_cons, List.flatMap_cons] at hlist
  exact List.append_cancel_left (List.cons.inj hlist).2

/-- The digits of a number written before a bracket are what comes first there. -/
theorem takeWhile_index (i : Nat) (rest : List Char) :
    (Nat.toDigits 10 i ++ ']' :: rest).takeWhile Char.isDigit = Nat.toDigits 10 i := by
  have hdigits : ∀ c ∈ Nat.toDigits 10 i, c.isDigit = true := fun c hc =>
    Nat.isDigit_of_mem_toDigits (by omega) (by omega) hc
  rw [List.takeWhile_append_of_pos hdigits, List.takeWhile_cons_of_neg (by decide),
    List.append_nil]

theorem toList_index (i : Nat) :
    (Segment.index i).text.toList = '[' :: (Nat.toDigits 10 i ++ [']']) := by
  simp only [Segment.text, String.toList_append, Nat.toString_eq_repr, Nat.toList_repr]
  rfl

/-- The path of a part of an item says which item it is. -/
theorem index_of_path {segment : Segment} {i j : Nat} {one other : List Segment}
    (hsame : path (segment :: .index i :: one) = path (segment :: .index j :: other)) : i = j := by
  have hrest := path_cons_inj hsame
  rw [List.flatMap_cons, List.flatMap_cons, toList_index, toList_index, List.cons_append,
    List.cons_append, List.append_assoc, List.append_assoc] at hrest
  have hdigits := congrArg (List.takeWhile Char.isDigit) (List.cons.inj hrest).2
  rw [List.singleton_append, List.singleton_append, takeWhile_index, takeWhile_index] at hdigits
  have hnumber := congrArg (Nat.ofDigitChars 10 · 0) hdigits
  simpa only [Nat.ofDigitChars_ten_toDigits] using hnumber

/-- The path of a part of a candidate is not one of a part of the document that is named
otherwise. -/
theorem path_attachments_ne {name : String} {one other : List Segment}
    (hname : (Segment.name name).text.toList[2]? ≠ some 'a')
    (hlong : 2 < (Segment.name name).text.toList.length) :
    path (.name "attachments" :: one) ≠ path (.name name :: other) := by
  intro hsame
  have hlist := congrArg String.toList hsame
  rw [toList_path, toList_path, List.flatMap_cons, List.flatMap_cons] at hlist
  have hthird := congrArg (fun chars : List Char => chars[2]?) (List.cons.inj hlist).2
  have hattachments : (Segment.name "attachments").text.toList = "['attachments']".toList := by
    decide
  simp only [List.getElem?_append_left hlong, hattachments] at hthird
  exact hname hthird.symm

/-! ## Faults -/

/-- Whatever a part is refused for is told at a path below some segments. -/
def FaultsBelow (segments : List Segment) (x : Except Invalid α) : Prop :=
  ∀ invalid, x = .error invalid → ∃ rest, invalid.atPath = path (segments ++ rest)

/-- What is returned has no fault. -/
theorem faultsBelow_pure (segments : List Segment) (a : α) :
    FaultsBelow segments (pure a : Except Invalid α) := by
  intro invalid herror
  cases herror

/-- What is refused at a path is told below what that path begins with. -/
theorem faultsBelow_refuse (segments rest : List Segment) (reason : String) :
    FaultsBelow segments (refuse (segments ++ rest) reason : Except Invalid α) := by
  intro invalid herror
  cases herror
  exact ⟨rest, rfl⟩

/-- The fault of a member is told below what its path begins with. -/
theorem faultsBelow_faultAt (segments rest : List Segment) (result : Except String α) :
    FaultsBelow segments (faultAt (segments ++ rest) result) := by
  cases result with
  | ok a => exact faultsBelow_pure segments a
  | error reason => exact faultsBelow_refuse segments rest reason

/-- The faults of two parts read one after another are told where each one's are. -/
theorem faultsBelow_bind {segments : List Segment} {x : Except Invalid α}
    {f : α → Except Invalid β} (hx : FaultsBelow segments x)
    (hf : ∀ a, FaultsBelow segments (f a)) : FaultsBelow segments (x >>= f) := by
  intro invalid herror
  rcases Fallible.bind_error.mp herror with hfirst | ⟨a, -, hlast⟩
  · exact hx invalid hfirst
  · exact hf a invalid hlast

/-- The path of a candidate. -/
def candidateAt (index : Nat) : List Segment :=
  [.name "attachments", .index index]

/-- The fault of a candidate's security is told at the candidate. -/
theorem Security.faults (security : Json.Map φ) (index : Nat) :
    FaultsBelow (candidateAt index) (Security.parse security index) := by
  have hpassphrase (result : Except String String) :
      FaultsBelow (candidateAt index) (faultAt (securityAt index "passphrase") result) :=
    faultsBelow_faultAt (candidateAt index) [.name "security", .name "passphrase"] result
  unfold Security.parse
  simp only
  split
  · exact faultsBelow_bind (hpassphrase _) fun _ => faultsBelow_pure _ _
  · exact faultsBelow_bind (hpassphrase _) fun _ => faultsBelow_pure _ _
  · exact faultsBelow_bind (hpassphrase _) fun _ => faultsBelow_pure _ _
  · exact faultsBelow_pure _ _
  · exact faultsBelow_refuse (candidateAt index) [.name "security", .name "kind"] _

/-- The fault of a member of a candidate is told at the candidate. -/
theorem faultsBelow_member (index : Nat) (member : String) (result : Except String α) :
    FaultsBelow (candidateAt index) (faultAt (attachmentAt index member) result) :=
  faultsBelow_faultAt (candidateAt index) [.name member] result

/-- A candidate refused for a member is refused at the candidate. -/
theorem faultsBelow_refused (index : Nat) (member reason : String) :
    FaultsBelow (candidateAt index)
      (refuse (attachmentAt index member) reason : Except Invalid α) :=
  faultsBelow_refuse (candidateAt index) [.name member] reason

/-- The fault of a wireless candidate is told at the candidate. -/
theorem Wireless.faults (candidate : Json.Map φ) (index : Nat) :
    FaultsBelow (candidateAt index) (Wireless.parse candidate index) := by
  have hsecurity : FaultsBelow (candidateAt index) (securityOf candidate index) := by
    unfold securityOf
    split
    · exact Security.faults _ index
    · exact faultsBelow_refused index "security" _
  have hbands : FaultsBelow (candidateAt index) (bandsOf candidate index) := by
    refine faultsBelow_bind (faultsBelow_member index "bands" _) fun bands => ?_
    split
    · exact faultsBelow_refused index "bands" _
    · split
      · exact faultsBelow_refused index "bands" _
      · exact faultsBelow_pure _ _
  rw [Wireless.parse_eq]
  refine faultsBelow_bind (faultsBelow_member index "ssid" _) fun ssid => ?_
  refine faultsBelow_bind hsecurity fun security => ?_
  refine faultsBelow_bind (faultsBelow_member index "hidden" _) fun hidden => ?_
  refine faultsBelow_bind (faultsBelow_member index "interface" _) fun interface => ?_
  exact faultsBelow_bind hbands fun bands => faultsBelow_pure _ _

/-- The fault of what a candidate's kind carries is told at the candidate. -/
theorem AttachmentKind.faults (candidate : Json.Map φ) (index : Nat) :
    FaultsBelow (candidateAt index) (AttachmentKind.parse candidate index) := by
  unfold AttachmentKind.parse
  simp only
  split
  · exact faultsBelow_bind (Wireless.faults candidate index) fun _ => faultsBelow_pure _ _
  · exact faultsBelow_bind (faultsBelow_member index "interface" _) fun _ =>
      faultsBelow_pure _ _
  · refine faultsBelow_bind (faultsBelow_member index "interface" _) fun interface => ?_
    refine faultsBelow_bind (faultsBelow_member index "addresses" _) fun addresses => ?_
    split
    · exact faultsBelow_bind (faultsBelow_refused index "addresses" _) fun _ => by
        split
        · exact faultsBelow_pure _ _
        · exact faultsBelow_bind (faultsBelow_refused index "gateway" _) fun _ =>
            faultsBelow_pure _ _
    · split
      · exact faultsBelow_pure _ _
      · exact faultsBelow_bind (faultsBelow_refused index "gateway" _) fun _ =>
          faultsBelow_pure _ _
  · exact faultsBelow_refused index "kind" _

/-- The fault of a candidate is told at the candidate. -/
theorem Attachment.faults (candidate : Json.Map φ) (index : Nat) :
    FaultsBelow (candidateAt index) (Attachment.parse candidate index) := by
  refine faultsBelow_bind (faultsBelow_member index "label" _) fun label => ?_
  refine faultsBelow_bind (faultsBelow_member index "enabled" _) fun enabled => ?_
  refine faultsBelow_bind (faultsBelow_member index "verify" _) fun verify => ?_
  refine faultsBelow_bind (faultsBelow_member index "nameservers" _) fun nameservers => ?_
  exact faultsBelow_bind (AttachmentKind.faults candidate index) fun kind =>
    faultsBelow_pure _ _

/-- The fault of candidates read from a position on is told at one from there on. -/
theorem parseAttachments_faults {items : List (Json φ)} {start : Nat}
    {dynamicInterfaces : List String} {invalid : Invalid}
    (hfault : parseAttachments start dynamicInterfaces items = .error invalid) :
    ∃ index ≥ start, ∃ rest, invalid.atPath = path (candidateAt index ++ rest) := by
  induction items generalizing start dynamicInterfaces with
  | nil => cases hfault
  | cons item others ih =>
      cases item with
      | object candidate =>
          rw [parseAttachments_cons] at hfault
          rcases Fallible.bind_error.mp hfault with hfirst | ⟨attachment, -, hfault⟩
          · exact ⟨start, Nat.le_refl start, Attachment.faults candidate start invalid hfirst⟩
          rcases Fallible.bind_error.mp hfault with hafter | ⟨after, -, hfault⟩
          · have hbelow : FaultsBelow (candidateAt start)
                (dynamicAfter start dynamicInterfaces attachment.kind) := by
              unfold dynamicAfter
              split
              · split
                · exact faultsBelow_refused start "interface" _
                · exact faultsBelow_pure _ _
              · exact faultsBelow_pure _ _
            exact ⟨start, Nat.le_refl start, hbelow invalid hafter⟩
          rcases Fallible.bind_error.mp hfault with hothers | ⟨read, -, hfault⟩
          · obtain ⟨index, hindex, hpath⟩ := ih hothers
            exact ⟨index, Nat.le_of_succ_le hindex, hpath⟩
          · cases hfault
      | _ =>
          cases hfault
          exact ⟨start, Nat.le_refl start, [], rfl⟩

/-- The fault of the hotspot is told at the hotspot. -/
theorem Hotspot.faults (hotspot : Json.Map φ) :
    FaultsBelow [.name "hotspot"] (Hotspot.parse hotspot) := by
  have hmember {α : Type} (member : String) (result : Except String α) :
      FaultsBelow [.name "hotspot"] (faultAt (hotspotAt member) result) :=
    faultsBelow_faultAt [.name "hotspot"] [.name member] result
  refine faultsBelow_bind (hmember "enabled" _) fun enabled => ?_
  refine faultsBelow_bind (hmember "ssid" _) fun ssid => ?_
  refine faultsBelow_bind (hmember "passphrase" _) fun passphrase => ?_
  refine faultsBelow_bind (hmember "interface" _) fun interface => ?_
  refine faultsBelow_bind (hmember "share-upstream" _) fun shareUpstream => ?_
  refine faultsBelow_bind (hmember "isolate-clients" _) fun isolateClients => ?_
  refine faultsBelow_bind (hmember "dhcp-range" _) fun dhcpRange => ?_
  refine faultsBelow_bind (hmember "band" _) fun band => ?_
  refine faultsBelow_bind (hmember "channel" _) fun channel => ?_
  exact faultsBelow_bind (hmember "channel-width" _) fun channelWidth => faultsBelow_pure _ _

/-- The fault of a document's hotspot is told at the hotspot. -/
theorem Document.hotspot_faults (document : Json.Map φ) :
    FaultsBelow [.name "hotspot"] (hotspotOf document) := by
  unfold hotspotOf
  split
  · exact faultsBelow_pure _ _
  · exact faultsBelow_pure _ _
  · exact faultsBelow_bind (Hotspot.faults _) fun _ => faultsBelow_pure _ _
  · exact faultsBelow_refuse [.name "hotspot"] [] _

end Bliti.Channel.Config
