import MolIpc.Ipc.Edits

/-!
The edits of copies and of the commands of other nodes.
-/

namespace MolIpc

/-! ### Copies -/

/-- A party of a copy is woken up when only the copy has kept it asleep. -/
def VcopyCall.aims (c : ℤ) (v : VcopyCall) : Set Kind :=
  { k | (v.srcNr = c ∨ v.dstNr = c) ∧ k = .ready }

def VcopyNext.aims (c : ℤ) : VcopyNext → Set Kind
  | .ret _ => ∅
  | .sleep v _ | .waitMigr v _ => v.aims c

def VcopyCall.reach (v : VcopyCall) : Set (ℤ × Kind) := { x | x.2 ∈ v.aims x.1 }

def VcopyNext.reach (next : VcopyNext) : Set (ℤ × Kind) := { x | x.2 ∈ next.aims x.1 }

namespace Node

section Copies

variable {q : ℤ} {A : Set (ℤ × Kind)} {n m : Node} {v : VcopyCall}

theorem Edits.vcopyFinish (h : Edits (.copy q) v.reach n m) (ret : ℤ) :
    Edits (.copy q) v.reach n (m.vcopyFinish q v ret).1 := by
  unfold Node.vcopyFinish
  dsimp only
  generalize (if ret = EMol.ok then (m.proc q).rcode else ret) = code
  generalize hu : (if ret = EMol.ok then m else m.modProc q fun p =>
    { p with rts := { p.rts with rmtoper := false }, proxy := noneEp, rcode := ret }) = u
  have hnu : Edits (.copy q) v.reach n u := by
    rw [← hu]
    split
    · exact h
    · exact h.own rfl fun _ => by rfl
  generalize hw : ((u.clearOncopy v.srcNr).clearOncopy v.dstNr).clearOncopy q = w
  have hnw : Edits (.copy q) v.reach n w := by
    rw [← hw]
    exact ((hnu.clearOncopy _).clearOncopy _).clearOncopy _
  generalize hx : (if (w.proc q).rts.signaled = true then
    w.modProc q fun p => p.initDesc w.conf.dcid else w) = x
  have hnx : Edits (.copy q) v.reach n x := by
    rw [← hx]
    split
    · exact hnw.init rfl rfl ‹_› _
    · exact hnw
  have hready : ∀ {u : Node} (i : ℤ), (v.srcNr = i ∨ v.dstNr = i) → Edits (.copy q) v.reach n u →
      Edits (.copy q) v.reach n (u.modProc i fun p => p.upIfReady code) := fun i hi h =>
    h.mod i (fun p => p.upIfReady_outer _) (.chg (.ready _ code) (.inr ⟨hi, rfl⟩))
  have hsrc : Edits (.copy q) v.reach n
      (if v.srcNr = q then x else x.modProc v.srcNr fun p => p.upIfReady code) := by
    split
    · exact hnx
    · exact hready _ (.inl rfl) hnx
  split
  · exact hsrc
  · exact hready _ (.inr rfl) hsrc

theorem vcopyHdr_cmd (n : Node) (c : ℤ) (v : VcopyCall) (len : ℤ) :
    (n.vcopyHdr c v len).cmd.byRemote = false ∧ (n.vcopyHdr c v len).cmd.hasCase = true := by
  unfold vcopyHdr
  dsimp only
  split_ifs <;> exact ⟨rfl, rfl⟩

theorem Edits.vcopyIssue (h : Edits (.copy q) v.reach n m) :
    Edits (.copy q) v.reach n (m.vcopyIssue q v).1 := by
  unfold Node.vcopyIssue
  split
  · exact h.vcopyFinish _
  dsimp only
  generalize hu : (m.modProc q fun p => { p with
    rts := { p.rts with rmtoper := true }, rmtcmd := m.vcopyHdr q v (m.vcopyLen v) }) = u
  have hask : Edits (.copy q) v.reach n (u.sproxyEnqueue q).1 := by
    obtain ⟨hby, hcase⟩ := m.vcopyHdr_cmd q v (m.vcopyLen v)
    rw [← hu]
    exact h.ask (.inl ⟨rfl, hby⟩) hcase fun _ => by rfl
  split
  · exact hask.vcopyFinish _
  · dsimp only
    exact hask.own rfl fun _ => by rfl

theorem edits_vcopyLocal (cp : ℕ → ℤ) (fuel : ℕ) (n : Node) (v : VcopyCall) (k : ℕ) :
    Edits (.copy q) A n (n.vcopyLocal v cp fuel k).1 := by
  induction fuel generalizing n v k with
  | zero => exact .refl n
  | succ fuel ih =>
    unfold vcopyLocal
    dsimp only
    split
    · exact .refl n
    split
    · exact .refl n
    · exact ((Edits.refl n).frame _ fun _ => by rfl).trans (ih ..)

theorem Edits.vcopyBody (h : Edits (.copy q) v.reach n m) (cp : ℕ → ℤ) :
    Edits (.copy q) v.reach n (m.vcopyBody q v cp).1 := by
  unfold Node.vcopyBody
  dsimp only
  split
  · split
    · exact (h.own rfl fun _ => by rfl).vcopyFinish _
    · have hcopy := h.trans (edits_vcopyLocal cp v.bytes.toNat m v 0)
      exact (hcopy.own rfl fun _ => by rfl).vcopyFinish _
  · generalize (if ¬ (m.proc v.srcNr).rts.remote = true then _ else _ : ℤ) = ret
    split
    · exact h.vcopyFinish _
    · exact h.vcopyIssue

theorem Edits.vcopyChecked (h : Edits (.copy q) v.reach n m) (cp : ℕ → ℤ) :
    Edits (.copy q) v.reach n (m.vcopyChecked q v cp).1 := by
  have henter : Edits (.copy q) v.reach n (m.vcopyEnter q v) :=
    (((h.setOncopy q).setOncopy _).setOncopy _).own rfl fun _ => by rfl
  unfold Node.vcopyChecked
  split
  · exact h
  · exact h.wait rfl rfl _ fun _ => by rfl
  split
  · exact h
  · exact h.wait rfl rfl _ fun _ => by rfl
  · exact henter.vcopyBody cp

theorem edits_vcopyStart {srcEp dstEp bytes : ℤ} {saddr daddr : ℕ} {cp : ℕ → ℤ}
    {r : Node × VcopyNext} (h : n.vcopyStart q srcEp saddr dstEp daddr bytes cp = some r) :
    Edits (.copy q) (n.vcopyArgs q srcEp saddr dstEp daddr bytes).reach n r.1 := by
  rw [vcopyStart_eq] at h
  dsimp only at h
  split at h
  · cases h
    exact .refl n
  split at h
  · cases h
  · cases h
    exact (Edits.refl n).vcopyChecked cp

theorem edits_vcopyWake (next : VcopyNext) (w : ℤ) (cp : ℕ → ℤ) :
    Edits (.copy q) next.reach n (n.vcopyWake q next w cp).1 := by
  unfold vcopyWake
  dsimp only
  generalize hu : n.modProc q (fun p => { p with
      rcode := sleepCode (n.proc q) w
      pseudosem := if sleepCode (n.proc q) w = EMol.ok then p.pseudosem
        else max p.pseudosem 0 }) = u
  have hnu : ∀ A, Edits (.copy q) A n u := fun A => by
    rw [← hu]
    exact (Edits.refl n).own rfl fun _ => by rfl
  have hup : ∀ A, Edits (.copy q) A n (u.modProc q Proc.wakeMigr) := fun A =>
    (hnu A).own rfl Proc.wakeMigr_outer
  split
  · exact .refl n
  · split
    · exact hnu _
    · exact (hup _).vcopyChecked cp
  · rename_i v len
    split
    · split
      · exact hnu _
      · exact (hup _).vcopyFinish _
    · show Edits (.copy q) (v.advance len).reach n _
      exact (hup _).vcopyIssue

end Copies

end Node

/-! ### Commands of other nodes -/

/-- What a command is good for to the sleeper `c`; `waits` says that it waits for the source. -/
def Hdr.aims (c cp : ℤ) (waits : Bool) (h : Hdr) : Set Kind :=
  { k | endpointP h.dst = c ∧
    match h.cmd with
    | .sendMsg | .replyMsg => k = .message
    | .sndrecMsg => k = .request
    | .ntfyMsg => k = if ¬ waits then .mark else if cp = 0 then .copied else .failed
    | .copyinAck | .copylclAck | .copyrmtAck | .copyoutData => k = .ready
    | _ => False }

/-- What a command that comes in at `n` is good for, to anybody. -/
def Hdr.reach (n : Node) (cp : ℤ) (h : Hdr) : Set (ℤ × Kind) :=
  { x | x.2 ∈ h.aims x.1 cp ((n.proc x.1).waitsFor h.msg.source) }

def Cmd.isMessage : Cmd → Bool
  | .sendMsg | .replyMsg | .sndrecMsg | .ntfyMsg => true
  | _ => false

/-- The source of a command, and the requester of a copy. A message that names another source spoils
the descriptor of its destination. -/
def Actor.command (n : Node) (h : Hdr) : Actor where
  who := { x | x = endpointP h.src ∨ h.cmd = .copyinRqst ∧ x = endpointP h.vcopy.rqtr }
  remote := true
  spoils := { x | x = endpointP h.dst ∧ h.cmd.isMessage = true ∧
    h.msg.source ≠ (n.proc (endpointP h.src)).endpoint }

namespace Node

section Put2lcl

variable {a : Actor} {A : Set (ℤ × Kind)} {n m : Node} {h : Hdr} {pay : Mem} {rmt lcl cp : ℤ}
  {r : Node × ℤ}

theorem Edits.ack {ack : Cmd} {x : ℤ} (h : Edits a A n m) (ha : a.remote = true) (hx : x ∈ a.who)
    (hby : ack.byRemote = true) (hcase : ack.hasCase = true) (lcl code : ℤ) :
    Edits a A n (m.genericAckLcl2rmt ack x lcl code).1 :=
  h.genericAck (.inl ⟨hx, hby.trans ha.symm⟩) hcase lcl code

theorem edits_sendRmt2lcl (ha : a.remote = true) (hr : rmt ∈ a.who) (hl : lcl ∉ a.who)
    (hsrc : h.msg.source = (n.proc rmt).endpoint ∨ lcl ∈ a.spoils)
    (hA : (lcl, if h.cmd = .sndrecMsg then .request else .message) ∈ A) :
    Edits a A n (n.sendRmt2lcl h rmt lcl cp).1 := by
  unfold sendRmt2lcl
  split
  · rename_i hw
    split
    · exact .refl n
    dsimp only
    generalize hu : (n.modProc lcl fun p => { p with ubuf := h.msg }) = u
    generalize hv : (if h.cmd = .sndrecMsg then u.modProc rmt fun p =>
        { p with rts := { p.rts with receiving := true }, getfrom := (u.proc lcl).endpoint }
      else ((u.modProc rmt fun p => { p with rcode := EMol.ok }).genericAckLcl2rmt
        .sendAck rmt lcl EMol.ok).1) = v
    have huv : (∀ B, Edits a B u v) ∧ ∀ q, q ∉ a.who → v.proc q = u.proc q := by
      have hne : ∀ q, q ∉ a.who → q ≠ rmt := fun q hq h => hq (h ▸ hr)
      rw [← hv]
      split
      · exact ⟨fun _ => (Edits.refl u).own hr fun _ => by rfl,
          fun q hq => modProc_of_ne _ _ (hne q hq)⟩
      · refine ⟨fun _ => ((Edits.refl u).own hr fun _ => by rfl).ack ha hr rfl rfl _ _,
          fun q hq => ?_⟩
        rw [genericAckLcl2rmt_proc_of_ne _ (hne q hq), modProc_of_ne _ _ (hne q hq)]
    subst hu
    have hg : ∀ p : Proc, (p.endReceive.upIfReady EMol.ok).outer = p.outer := fun p => by
      rw [Proc.upIfReady_outer]
      rfl
    rcases hsrc with hsrc | hs
    · rw [← hsrc] at hw
      refine (Edits.refl n).around (fun _ => by rfl) hg (huv.1 ∅) hl huv.2 ?_ (.inr hA)
      split
      · exact .request _ h.msg hw
      · exact .message _ h.msg hw
    · have hf : Edits a A n (n.modProc lcl fun p => { p with ubuf := h.msg }) :=
        (Edits.refl n).mod lcl (fun _ => by rfl) (.spoil hs)
      exact (hf.trans (huv.1 A)).mod lcl hg (.spoil hs)
  · exact ((Edits.refl n).own hr fun _ => by rfl).link hr lcl

theorem edits_notifyRmt2lcl (upd : ℤ)
    (hsrc : h.msg.source = (n.proc rmt).endpoint ∨ lcl ∈ a.spoils)
    (hA : (lcl, if ¬ (n.proc lcl).waitsFor h.msg.source then .mark
      else if cp = 0 then .copied else .failed) ∈ A) :
    Edits a A n (n.notifyRmt2lcl h rmt lcl upd cp).1 := by
  unfold notifyRmt2lcl
  dsimp only
  split
  · exact .refl n
  rcases hsrc with hsrc | hs
  · rw [← hsrc]
    split
    · rename_i hw
      rw [if_neg (not_not_intro hw)] at hA
      -- the update bits are of no matter, the rest is a delivery
      have hupd : Edits a A n (n.modProc lcl (·.setUpdt upd)) :=
        (Edits.refl n).frame lcl fun _ => by rfl
      have hmod : n.modProc lcl (fun p => ({ p with
          updtPending := setUpdate p.updtPending upd
          ubuf := if cp = 0 then h.msg else p.ubuf }.endReceive).upIfReady EMol.ok) =
          (n.modProc lcl (·.setUpdt upd)).modProc lcl fun p =>
            ({ p with ubuf := if cp = 0 then h.msg else p.ubuf }.endReceive).upIfReady EMol.ok := by
        simp [modProc, Proc.setUpdt]
      dsimp only
      rw [hmod]
      refine hupd.mod lcl (fun p => Proc.upIfReady_outer _ _) ?_
      have hw' : ((n.modProc lcl (·.setUpdt upd)).proc lcl).waitsFor h.msg.source := by
        rw [modProc_same]
        exact hw
      split at hA
      · rename_i hcp
        simp only [hcp, if_true]
        exact .chg (.copied _ h.msg hw') (.inr hA)
      · rename_i hcp
        simp only [hcp, if_false]
        exact .chg (.failed _ _ EMol.ok hw') (.inr hA)
    · rename_i hw
      rw [if_pos hw] at hA
      dsimp only
      refine (Edits.refl n).mod lcl (fun _ => ?_) (.chg (.mark _ _ ?_) (.inr hA))
      · rfl
      · rfl
  · have hmod : ∀ {f : Proc → Proc}, (∀ p, (f p).outer = p.outer) →
        Edits a A n (n.modProc lcl f) := fun hf => (Edits.refl n).mod lcl hf (.spoil hs)
    split <;> dsimp only
    · exact hmod fun p => Proc.upIfReady_outer _ _
    · exact hmod fun _ => by rfl

section

variable (ha : a.remote = true)

include ha

theorem edits_copyrmtRqst (hr : rmt ∈ a.who) (heq : n.copyrmtRqstRmt2lcl h rmt lcl = some r) :
    Edits a A n r.1 := by
  have hclear : Edits a A n ((n.clearOncopy lcl).clearOncopy rmt) :=
    ((Edits.refl n).clearOncopy lcl).clearOncopy rmt
  unfold copyrmtRqstRmt2lcl at heq
  dsimp only at heq
  split at heq
  · cases heq
    exact .refl n
  split at heq
  · cases heq
  split at heq
  · rename_i hok
    cases heq
    have hd : (((n.clearOncopy lcl).clearOncopy rmt).proc (endpointP h.vcopy.dst)).rts.remote
        = true := by
      by_contra hd
      rw [copyrmtDstCheck, if_pos hd] at hok
      exact absurd hok (by decide)
    refine (hclear.mod _ (fun _ => ?_) (.remote hd)).ask (b := .copyinRqst)
      (.inr ⟨?_, rfl⟩) rfl fun _ => by rfl
    · rfl
    · rw [modProc_same]
      exact hd
  split at heq
  · cases heq
    exact hclear
  · cases heq
    exact hclear.ack ha hr rfl rfl _ _

theorem edits_copylclRqst (hr : rmt ∈ a.who) (heq : n.copylclRqstRmt2lcl h rmt lcl cp = some r) :
    Edits a A n r.1 := by
  have hclear : Edits a A n ((n.clearOncopy lcl).clearOncopy rmt) :=
    ((Edits.refl n).clearOncopy lcl).clearOncopy rmt
  unfold copylclRqstRmt2lcl at heq
  dsimp only at heq
  split at heq
  · cases heq
    exact .refl n
  split at heq
  · cases heq
  split at heq
  · cases heq
    generalize hu : (if cp = 0 then _ else _ : Node) = u
    have hnu : Edits a A n u := by
      rw [← hu]
      split
      · exact hclear.frame _ fun _ => by rfl
      · exact hclear
    exact (hnu.own hr fun _ => by rfl).ack ha hr rfl rfl _ _
  · cases heq
    exact hclear.ack ha hr rfl rfl _ _

theorem edits_copyinData (hr : rmt ∈ a.who) :
    Edits a A n (n.copyinDataRmt2lcl h pay rmt lcl cp).1 := by
  unfold copyinDataRmt2lcl
  dsimp only
  generalize (if ¬ bytesOk h (n.conf.maxbytes h.snode) then _ else _ : ℤ) = ret
  generalize hu : (if ret = EMol.ok then _ else _ : Node) = u
  have hnu : Edits a A n u := by
    rw [← hu]
    split
    · exact (Edits.refl n).frame lcl fun _ => by rfl
    · exact .refl n
  exact (hnu.own hr fun _ => by rfl).ack ha hr rfl rfl _ _

theorem edits_copyinRqst (hq : endpointP h.vcopy.rqtr ∈ a.who)
    (heq : n.copyinRqstRmt2lcl h pay rmt lcl cp = some r) : Edits a A n r.1 := by
  have hclear : Edits a A n ((n.clearOncopy lcl).clearOncopy rmt) :=
    ((Edits.refl n).clearOncopy lcl).clearOncopy rmt
  unfold copyinRqstRmt2lcl at heq
  dsimp only at heq
  split at heq
  · cases heq
  cases heq
  generalize (if ¬ ((((n.clearOncopy lcl).clearOncopy rmt).proc
    (endpointP h.vcopy.rqtr)).rts.remote = true) then _ else _ : ℤ) = ret
  generalize hu : (if ret = EMol.ok then _ else _ : Node) = u
  have hnu : Edits a A n u := by
    rw [← hu]
    split
    · exact hclear.frame lcl fun _ => by rfl
    · exact hclear
  dsimp only
  split
  · exact (hnu.own hq fun _ => by rfl).ack ha hq rfl rfl _ _
  · exact hnu.own hq fun _ => by rfl

theorem edits_copyoutRqst (hr : rmt ∈ a.who) : Edits a A n (n.copyoutRqstRmt2lcl h rmt lcl).1 := by
  unfold copyoutRqstRmt2lcl
  dsimp only
  generalize (if ¬ bytesOk h (n.conf.maxbytes h.snode) then _ else _ : ℤ) = ret
  generalize hu : (if ret = EMol.ok then _ else _ : Node) = u
  have hnu : Edits a A n u := by
    rw [← hu]
    split
    · exact (Edits.refl n).own hr fun _ => by rfl
    · exact .refl n
  exact hnu.ask (b := .copyoutData) (.inl ⟨hr, ha.symm⟩) rfl fun _ => by rfl

end

theorem Edits.acked (h : Edits a A n m) (hA : (lcl, .ready) ∈ A) (code : ℤ) :
    Edits a A n (m.modProc lcl fun p => if p.rts = Rts.onlyOncopy then p.up code else p) := by
  refine h.mod lcl (fun p => by split <;> rfl) ?_
  split
  · exact .chg (.acked _ code ‹_›) (.inr hA)
  · exact .chg (.frame _ _ rfl) (.inl rfl)

theorem edits_copyoutData (hA : (lcl, .ready) ∈ A)
    (heq : n.copyoutDataRmt2lcl h pay rmt lcl cp = some r) : Edits a A n r.1 := by
  unfold copyoutDataRmt2lcl at heq
  dsimp only at heq
  split at heq
  · cases heq
    exact .refl n
  split at heq
  · cases heq
  generalize (if (n.proc lcl).rts = Rts.running then _ else _ : ℤ) = ret at heq
  split at heq
  · cases heq
    exact .refl n
  · cases heq
    refine Edits.acked ?_ hA _
    split
    · exact (Edits.refl n).frame _ fun _ => by rfl
    · exact .refl n

theorem edits_sendAck (code : ℤ) : Edits a A n (n.sendAckRmt2lcl rmt lcl code).1 := by
  unfold sendAckRmt2lcl
  split
  · exact .refl n
  split
  · exact .refl n
  rename_i hs
  split
  · exact .refl n
  dsimp only
  refine (Edits.refl n).mod lcl (fun p => ?_) (.chg (.served _ code (not_not.mp hs)) (.inl rfl))
  exact Proc.upIfReady_outer _ _

theorem edits_genericAckRmt2lcl (hA : (lcl, .ready) ∈ A) (code : ℤ) :
    Edits a A n (n.genericAckRmt2lcl rmt lcl code).1 := by
  unfold genericAckRmt2lcl
  iterate 4
    split
    · exact .refl n
  exact (Edits.refl n).acked hA code

theorem errorAck_spec {c : Cmd} (h : errorAck c ≠ .none) :
    (errorAck c).byRemote = true ∧ (errorAck c).hasCase = true := by
  cases c <;> first | exact ⟨rfl, rfl⟩ | exact absurd rfl h

theorem edits_put2lclReject (ha : a.remote = true) (hr : endpointP h.src ∈ a.who) (ret : ℤ) :
    Edits a A n (n.put2lclReject h ret).1 := by
  unfold put2lclReject
  split
  · exact .refl n
  split
  · exact .refl n
  split
  · dsimp only
    split
    · exact .refl n
    · exact (Edits.refl n).ask (b := .copyrmtAck) (.inr ⟨not_not.mp ‹_›, rfl⟩) rfl
        fun _ => by rfl
  split
  · exact .refl n
  · obtain ⟨hby, hcase⟩ := errorAck_spec ‹_›
    exact (Edits.refl n).ask (.inl ⟨hr, hby.trans ha.symm⟩) hcase fun _ => by rfl

theorem edits_put2lcl {px : ℤ} (heq : n.put2lcl px h pay cp = some r) :
    Edits (.command n h) (h.reach n cp) n r.1 := by
  have hr : endpointP h.src ∈ (Actor.command n h).who := .inl rfl
  unfold put2lcl at heq
  dsimp only at heq
  split at heq
  · cases heq
    exact .refl n
  split at heq
  · cases heq
  rename_i hne
  split at heq
  · cases heq
    exact edits_put2lclReject rfl hr _
  have hready : h.cmd = .copyinAck ∨ h.cmd = .copylclAck ∨ h.cmd = .copyrmtAck ∨
      h.cmd = .copyoutData → (endpointP h.dst, .ready) ∈ h.reach n cp := by
    rintro (hcmd | hcmd | hcmd | hcmd) <;> exact ⟨rfl, by rw [hcmd]⟩
  have hl : h.cmd ≠ .copyinRqst → endpointP h.dst ∉ (Actor.command n h).who := by
    rintro hcmd (hd | ⟨hcmd', -⟩)
    · exact hne hd.symm
    · exact hcmd hcmd'
  have hsrc : h.cmd.isMessage = true → h.msg.source = (n.proc (endpointP h.src)).endpoint ∨
      endpointP h.dst ∈ (Actor.command n h).spoils := fun hm =>
    or_iff_not_imp_left.mpr fun hs => ⟨rfl, hm, hs⟩
  unfold put2lclCmd at heq
  split at heq
  case h_6 hcmd => exact edits_copyinRqst rfl (.inr ⟨hcmd, rfl⟩) heq
  case h_8 => exact edits_copylclRqst rfl hr heq
  case h_9 => exact edits_copyrmtRqst rfl hr heq
  case h_14 hcmd => exact edits_copyoutData (hready (by simp [hcmd])) heq
  all_goals obtain rfl := Option.some.inj heq
  case h_1 hcmd | h_2 hcmd | h_3 hcmd =>
    refine edits_sendRmt2lcl rfl hr (hl (by rw [hcmd]; decide)) (hsrc (by rw [hcmd]; rfl)) ?_
    refine ⟨rfl, ?_⟩
    simp [hcmd]
  case h_4 hcmd =>
    refine edits_notifyRmt2lcl _ (hsrc (by rw [hcmd]; rfl)) ⟨rfl, ?_⟩
    simp [hcmd]
  case h_5 => exact edits_copyinData rfl hr
  case h_7 => exact edits_copyoutRqst rfl hr
  case h_10 => exact edits_sendAck _
  case h_11 hcmd | h_12 hcmd | h_13 hcmd =>
    exact edits_genericAckRmt2lcl (hready (by simp [hcmd])) _
  case h_15 => exact .refl n

end Put2lcl

end Node

end MolIpc
