import Bliti.Network.Render.Iwd.Called

/-!
# Known networks - the files kept

What holds of the network files as they are gathered over the candidates: each is
written for a candidate that is turned on, each candidate turned on has one, and
no two are at one path.
-/

namespace Bliti.Network.Render.Iwd

open Channel.Config Fallible

variable {φ : Type} [BEq φ]

/-! ## Sharing a file -/

/-- Whether one candidate's file may be another's too: they are the same, or do not differ. -/
def Shares (first wireless : Wireless φ) : Prop :=
  first = wireless ∨ differs first wireless = none

omit [BEq φ] in
/-- The file of a candidate's network, from what is written of its security. -/
def networkFile (hardware : Hardware) (wireless : Wireless φ) (rank : Nat)
    (security : String) : File where
  path := networkPath hardware wireless
  contents := header (candidatePath rank) ++ "\n" ++ settings wireless ++ "\n" ++ security
  mode := SECRET

/-- Equal members hold the same strings. -/
theorem Enterprise.textOf_of_beq {members others : Json.Map φ}
    (hequal : (members == others) = true) (member : String) :
    textOf members member = textOf others member := by
  unfold textOf
  induction members generalizing others with
  | nil =>
      cases others with
      | nil => rfl
      | cons => cases hequal
  | cons held members ih =>
      cases others with
      | nil => cases hequal
      | cons other others =>
          obtain ⟨name, value⟩ := held
          obtain ⟨name', value'⟩ := other
          rw [List.cons_beq_cons, Bool.and_eq_true] at hequal
          obtain ⟨hmember, hrest⟩ := hequal
          obtain ⟨hnames, hvalue⟩ := (Bool.and_eq_true _ _).mp hmember
          obtain rfl : name = name' := eq_of_beq hnames
          rw [Json.get, Json.get]
          by_cases hname : name = member
          · rw [if_pos hname, if_pos hname]
            cases value <;> cases value' <;> first | exact Bool.noConfusion hvalue | skip
            all_goals simp_all [BEq.beq, Json.beq]
          · rw [if_neg hname, if_neg hname]
            exact ih hrest

omit [BEq φ] in
theorem Enterprise.called_congr {members others : Json.Map φ}
    (htext : ∀ member, textOf members member = textOf others member) :
    securityCalled (.enterprise members) = securityCalled (.enterprise others) ∧
      Iwd.values (.enterprise members) = Iwd.values (.enterprise others) := by
  have htold : told members = told others := funext fun member => by rw [told, told, htext]
  have houter : outer members = outer others := by
    funext method
    cases method <;> simp only [outer, htext, htold]
  have hkeys : keysCalled members = keysCalled others := by
    funext method
    cases method <;> simp only [keysCalled, methodKeys, htext, htold, houter]
  have hembedded : embeddedCalled members = embeddedCalled others := by
    funext method
    cases method <;> simp only [embeddedCalled, htold]
  have hvalues : Enterprise.values members = Enterprise.values others := by
    funext method
    cases method <;> simp only [Enterprise.values, htext, htold, houter]
  simp only [securityCalled, Iwd.values, htold, hkeys, hembedded, hvalues, and_self]

/-- Equal securities call for the same. -/
theorem securityCalled_of_beq {security other : Security φ} (hequal : (security == other) = true) :
    modes security = modes other ∧ securityCalled security = securityCalled other ∧
      values security = values other := by
  cases security with
  | psk passphrase | pskSae passphrase | sae passphrase =>
      cases other <;> first | exact Bool.noConfusion hequal | skip
      obtain rfl := eq_of_beq (α := String) hequal
      exact ⟨rfl, rfl, rfl⟩
  | enterprise members =>
      cases other <;> first | exact Bool.noConfusion hequal | skip
      exact ⟨rfl, Enterprise.called_congr (Enterprise.textOf_of_beq hequal)⟩

/-- Two candidates for one network do not differ where their security and visibility are equal. -/
theorem differs_eq_none_iff {first wireless : Wireless φ} :
    differs first wireless = none ↔ (first.security == wireless.security) = true ∧
      first.hidden.getD false = wireless.hidden.getD false := by
  unfold differs bne
  cases first.security == wireless.security <;>
    by_cases hhidden : first.hidden.getD false = wireless.hidden.getD false <;> simp [hhidden]

/-- Candidates that may share a file call for the same, with the same strings for values. -/
theorem called_of_shares {first wireless : Wireless φ} (hshares : Shares first wireless) :
    called first = called wireless ∧ values first.security = values wireless.security := by
  rcases hshares with rfl | hdiffers
  · exact ⟨rfl, rfl⟩
  · obtain ⟨hsecurity, hhidden⟩ := differs_eq_none_iff.mp hdiffers
    obtain ⟨hmodes, hcalled, hvalues⟩ := securityCalled_of_beq hsecurity
    exact ⟨by rw [called, called, hhidden, hmodes, hcalled], hvalues⟩

/-! ## The networks gathered -/

variable {hardware : Hardware}

/-- What holds of the networks gathered over some candidates: each is written for one of them
that is turned on, each of them turned on has one, and no two are at one path. -/
structure Knows (hardware : Hardware) (candidates : List (Attachment φ × Nat))
    (networks : List (Known φ)) : Prop where
  written : ∀ network ∈ networks, ∃ text, security network.wireless network.rank = .ok text ∧
    network.file = networkFile hardware network.wireless network.rank text
  wanted : ∀ network ∈ networks, ∃ attachment, (attachment, network.rank) ∈ candidates ∧
    attachment.enabled ∧ attachment.kind = .wireless network.wireless
  held : ∀ attachment rank wireless, (attachment, rank) ∈ candidates → attachment.enabled →
    attachment.kind = .wireless wireless → isSsid wireless.ssid ∧
      ∃ network ∈ networks, network.file.path = networkPath hardware wireless ∧
        Shares network.wireless wireless
  apart : (networks.map fun network => network.file.path).Nodup

/-- Nothing is gathered at the start. -/
theorem knows_nil : Knows (φ := φ) hardware [] [] where
  written _ hnetwork := nomatch hnetwork
  wanted _ hnetwork := nomatch hnetwork
  held _ _ _ hcandidate := nomatch hcandidate
  apart := List.nodup_nil

variable {candidates : List (Attachment φ × Nat)} {networks : List (Known φ)}
  {attachment : Attachment φ} {rank : Nat}

/-- One candidate more leaves what was gathered, where the networks carry it already. -/
theorem Knows.skip (hknows : Knows hardware candidates networks)
    (hcarried : ∀ wireless, attachment.enabled → attachment.kind = .wireless wireless →
      isSsid wireless.ssid ∧ ∃ network ∈ networks,
        network.file.path = networkPath hardware wireless ∧ Shares network.wireless wireless) :
    Knows hardware (candidates ++ [(attachment, rank)]) networks where
  written := hknows.written
  wanted network hnetwork := by
    obtain ⟨other, hother, hwanted⟩ := hknows.wanted network hnetwork
    exact ⟨other, List.mem_append_left _ hother, hwanted⟩
  held other place wireless hcandidate henabled hkind := by
    rcases List.mem_append.mp hcandidate with hearlier | hthis
    · exact hknows.held other place wireless hearlier henabled hkind
    · cases List.mem_singleton.mp hthis
      exact hcarried wireless henabled hkind
  apart := hknows.apart

/-- One candidate more adds its own network, where none is at its path. -/
theorem Knows.add (hknows : Knows hardware candidates networks) {wireless : Wireless φ}
    (henabled : attachment.enabled) (hkind : attachment.kind = .wireless wireless)
    (hssid : isSsid wireless.ssid) {text : String} (htext : security wireless rank = .ok text)
    (hfree : ∀ network ∈ networks, network.file.path ≠ networkPath hardware wireless) :
    Knows hardware (candidates ++ [(attachment, rank)])
      (networks ++ [⟨rank, wireless, networkFile hardware wireless rank text⟩]) where
  written network hnetwork := by
    rcases List.mem_append.mp hnetwork with hearlier | hthis
    · exact hknows.written network hearlier
    · cases List.mem_singleton.mp hthis
      exact ⟨text, htext, rfl⟩
  wanted network hnetwork := by
    rcases List.mem_append.mp hnetwork with hearlier | hthis
    · obtain ⟨other, hother, hwanted⟩ := hknows.wanted network hearlier
      exact ⟨other, List.mem_append_left _ hother, hwanted⟩
    · cases List.mem_singleton.mp hthis
      exact ⟨attachment, List.mem_append_right _ (List.mem_singleton_self _), henabled, hkind⟩
  held other place carried hcandidate honce hother := by
    rcases List.mem_append.mp hcandidate with hearlier | hthis
    · obtain ⟨hssid, network, hnetwork, hpath⟩ :=
        hknows.held other place carried hearlier honce hother
      exact ⟨hssid, network, List.mem_append_left _ hnetwork, hpath⟩
    · cases List.mem_singleton.mp hthis
      cases hkind.symm.trans hother
      exact ⟨hssid, _, List.mem_append_right _ (List.mem_singleton_self _), rfl, .inl rfl⟩
  apart := by
    rw [List.map_append, List.nodup_append]
    refine ⟨hknows.apart, List.nodup_singleton _, ?_⟩
    intro path hpath other hother
    obtain ⟨network, hnetwork, rfl⟩ := List.mem_map.mp hpath
    rw [List.mem_singleton.mp hother]
    exact hfree network hnetwork

/-- Each candidate keeps what holds of the networks gathered. -/
theorem Knows.addNetwork (hknows : Knows hardware candidates networks)
    {after : List (Known φ)}
    (hadded : Iwd.addNetwork hardware networks (attachment, rank) = .ok after) :
    Knows hardware (candidates ++ [(attachment, rank)]) after := by
  unfold Iwd.addNetwork at hadded
  simp only at hadded
  split at hadded
  · rename_i wireless hkind
    split at hadded
    · cases hadded
    · split at hadded
      · cases hadded
      · rename_i hssid
        obtain ⟨text, htext, hadded⟩ := bind_ok.mp hadded
        split at hadded
        · rename_i hdisabled
          cases hadded
          exact hknows.skip fun _ henabled => absurd henabled (by simpa using hdisabled)
        · rename_i henabled
          split at hadded
          · rename_i earlier hearlier
            have hmem := List.mem_of_find?_eq_some hearlier
            have hpath : earlier.file.path = networkPath hardware wireless := by
              simpa using List.find?_some hearlier
            split at hadded
            · rename_i hdiffers
              cases hadded
              refine hknows.skip fun other _ hother => ?_
              cases hkind.symm.trans hother
              exact ⟨by simpa using hssid, earlier, hmem, hpath, .inr hdiffers⟩
            · cases hadded
          · rename_i hfree
            cases hadded
            exact hknows.add (by simpa using henabled) hkind (by simpa using hssid) htext
              fun network hnetwork => by simpa using List.find?_eq_none.mp hfree network hnetwork
  · rename_i hkind
    cases hadded
    exact hknows.skip fun _ _ hother => nomatch hkind.symm.trans hother
  · rename_i hkind
    cases hadded
    exact hknows.skip fun _ _ hother => nomatch hkind.symm.trans hother

/-- The network files of a document are those of networks gathered over its candidates. -/
theorem knows_of_networks {document : Document φ} {files : List File}
    (hfiles : Iwd.networks document hardware = .ok files) :
    ∃ networks, Knows hardware document.attachments.zipIdx networks ∧
      files = networks.map Known.file := by
  obtain ⟨networks, hnetworks, hmap⟩ := bind_ok.mp hfiles
  refine ⟨networks, ?_, (pure_ok.mp hmap).symm⟩
  exact foldlM_induction (fun candidates networks candidate after hknows hadded =>
    hknows.addNetwork hadded) knows_nil hnetworks

end Bliti.Network.Render.Iwd
