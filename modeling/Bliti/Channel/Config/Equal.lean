import Bliti.Library.Equality
import Bliti.Channel.Config

/-!
# Configuration documents - equality

Documents are compared part by part, the raw members of an enterprise network's security as
the JSON values they are.  The doubles among those are compared as `φ` compares them.
-/

namespace Bliti

variable {φ : Type} [BEq φ]

/-! ## JSON values -/

section

variable [PartialEquivBEq φ]

instance : PartialEquivBEq (Number φ) where
  symm {a b} hequal := by
    cases a <;> cases b <;> first | exact hequal | skip
    · exact BEq.symm (α := Int) hequal
    · exact BEq.symm (α := φ) hequal
  trans {a b c} hequal hnext := by
    cases a <;> cases b <;> first | exact Bool.noConfusion hequal | skip
    all_goals cases c <;> first | exact Bool.noConfusion hnext | skip
    · exact BEq.trans (α := Int) hequal hnext
    · exact BEq.trans (α := φ) hequal hnext

end

namespace Json

mutual

/-- Values compare the same whichever way round. -/
theorem beq_comm [PartialEquivBEq φ] (a b : Json φ) : beq a b = beq b a := by
  cases a <;> cases b <;> try simp only [beq]
  · exact BEq.comm
  · exact BEq.comm
  · exact BEq.comm
  · exact beqItems_comm _ _
  · exact beqMembers_comm _ _

theorem beqItems_comm [PartialEquivBEq φ] (as bs : List (Json φ)) :
    beqItems as bs = beqItems bs as := by
  match as, bs with
  | [], [] => rfl
  | [], _ :: _ => rfl
  | _ :: _, [] => rfl
  | a :: as, b :: bs => simp only [beqItems, beq_comm a b, beqItems_comm as bs]

theorem beqMembers_comm [PartialEquivBEq φ] (as bs : Map φ) :
    beqMembers as bs = beqMembers bs as := by
  match as, bs with
  | [], [] => rfl
  | [], _ :: _ => rfl
  | _ :: _, [] => rfl
  | (name, a) :: as, (_, b) :: bs =>
      simp only [beqMembers, beqMember, beq_comm a b, beqMembers_comm as bs, BEq.comm (a := name)]

end

mutual

/-- Values that equal one value in turn are equal. -/
theorem beq_trans [PartialEquivBEq φ] {a b c : Json φ} (hequal : beq a b = true)
    (hnext : beq b c = true) : beq a c = true := by
  cases a <;> cases b <;> (try simp only [beq, Bool.false_eq_true] at hequal) <;> cases c <;>
    try simp only [beq, Bool.false_eq_true] at hnext
  · rfl
  · exact BEq.trans hequal hnext
  · exact BEq.trans hequal hnext
  · exact BEq.trans hequal hnext
  · exact beqItems_trans hequal hnext
  · exact beqMembers_trans hequal hnext

theorem beqItems_trans [PartialEquivBEq φ] {as bs cs : List (Json φ)}
    (hequal : beqItems as bs = true) (hnext : beqItems bs cs = true) :
    beqItems as cs = true := by
  match as, bs, cs with
  | [], [], [] => rfl
  | _ :: _, _ :: _, _ :: _ =>
      simp only [beqItems, Bool.and_eq_true] at hequal hnext ⊢
      exact ⟨beq_trans hequal.1 hnext.1, beqItems_trans hequal.2 hnext.2⟩

theorem beqMembers_trans [PartialEquivBEq φ] {as bs cs : Map φ}
    (hequal : beqMembers as bs = true) (hnext : beqMembers bs cs = true) :
    beqMembers as cs = true := by
  match as, bs, cs with
  | [], [], [] => rfl
  | (_, _) :: _, (_, _) :: _, (_, _) :: _ =>
      simp only [beqMembers, beqMember, Bool.and_eq_true, beq_iff_eq] at hequal hnext ⊢
      exact ⟨⟨hequal.1.1.trans hnext.1.1, beq_trans hequal.1.2 hnext.1.2⟩,
        beqMembers_trans hequal.2 hnext.2⟩

end

instance [PartialEquivBEq φ] : PartialEquivBEq (Json φ) where
  symm hequal := (beq_comm _ _).trans hequal
  trans hequal hnext := beq_trans hequal hnext

end Json

/-! ## Candidates -/

namespace Channel.Config

deriving instance ReflBEq for Security, Wireless, AttachmentKind, Attachment
deriving instance ReflBEq for Hotspot, Document

variable [PartialEquivBEq φ]

instance : PartialEquivBEq (Security φ) where
  symm {a b} hequal := by
    cases a <;> cases b <;> first | exact hequal | skip
    · exact BEq.symm (α := String) hequal
    · exact BEq.symm (α := String) hequal
    · exact BEq.symm (α := String) hequal
    · exact BEq.symm (α := Json.Map φ) hequal
  trans {a b c} hequal hnext := by
    cases a <;> cases b <;> first | exact Bool.noConfusion hequal | skip
    all_goals cases c <;> first | exact Bool.noConfusion hnext | skip
    · exact BEq.trans (α := String) hequal hnext
    · exact BEq.trans (α := String) hequal hnext
    · exact BEq.trans (α := String) hequal hnext
    · exact BEq.trans (α := Json.Map φ) hequal hnext

instance : PartialEquivBEq (Wireless φ) :=
  partialEquivBEq_of_key (fun wireless =>
      (wireless.ssid, wireless.security, wireless.hidden, wireless.interface, wireless.bands))
    fun a b => by cases a; cases b; rfl

instance : PartialEquivBEq (AttachmentKind φ) where
  symm {a b} hequal := by
    cases a <;> cases b <;> first | exact hequal | skip
    · exact BEq.symm (α := Wireless φ) hequal
    · exact BEq.symm (α := String) hequal
    · rename_i i is g j js h
      exact BEq.symm (a := (i, is, g)) (b := (j, js, h)) hequal
  trans {a b c} hequal hnext := by
    cases a <;> cases b <;> first | exact Bool.noConfusion hequal | skip
    all_goals cases c <;> first | exact Bool.noConfusion hnext | skip
    · exact BEq.trans (α := Wireless φ) hequal hnext
    · exact BEq.trans (α := String) hequal hnext
    · rename_i i is g j js h k ks l
      exact BEq.trans (a := (i, is, g)) (b := (j, js, h)) (c := (k, ks, l)) hequal hnext

instance : PartialEquivBEq (Attachment φ) :=
  partialEquivBEq_of_key (fun attachment =>
      (attachment.label, attachment.enabled, attachment.verify, attachment.nameservers,
        attachment.kind))
    fun a b => by cases a; cases b; rfl

end Channel.Config

end Bliti
