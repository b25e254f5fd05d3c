import MolIpc.Ipc.Disturb
import MolIpc.Lib.Reach
import MolIpc.Net.ReplyPaths

/-!
`mm_mini_rcvrqst` and the requests.

A server that calls `mm_mini_rcvrqst` is to get requests only: messages of processes that are in a
sendrec and wait for its reply. The call takes the first sender of the queue, whoever it is, and
while it blocks it looks like a receive from `ANY`. What it gets is a request iff the first sender
is in a sendrec, and as long as nobody sends, replies or notifies to the server while it blocks.
-/

namespace MolIpc

open Reach Relation

namespace Node

def AwaitsReply (n : Node) (c x : ℤ) : Prop := (n.proc x).waitsExactly (n.proc c).endpoint

/-- The message that `c` has got is one of `x`, which waits for the reply. -/
structure RequestOf (n : Node) (c x : ℤ) : Prop where
  source : (n.proc c).ubuf.source = (n.proc x).endpoint
  awaits : n.AwaitsReply c x

/-- A process of this node that begins to receive: it sends nothing and is in no queue. -/
structure Receiver (n : Node) (c : ℤ) : Prop where
  isLocal : (n.proc c).rts.remote = false
  used : (n.proc c).rts.slotFree = false
  idle : (n.proc c).rts.sending = false
  unqueued (q : ℤ) : c ∉ (n.proc q).list

/-! ### The queue -/

section Queue

variable {n : Node} {c x : ℤ}

theorem receiveFrom_request (hx : x ≠ c) (hok : n.senderCheck c x = EMol.ok) :
    ((n.receiveFrom c x 0).1.proc c).ubuf =
        (if (n.proc x).rts.remote then (n.proc x).message else n.sentBy x) ∧
      ((n.receiveFrom c x 0).1.proc c).endpoint = (n.proc c).endpoint ∧
      ((n.receiveFrom c x 0).1.proc x).endpoint = (n.proc x).endpoint ∧
      ((n.receiveFrom c x 0).1.proc x).rts.receiving = (n.proc x).rts.receiving ∧
      ((n.receiveFrom c x 0).1.proc x).rts.sending = false ∧
      ((n.receiveFrom c x 0).1.proc x).getfrom = (n.proc x).getfrom := by
  unfold receiveFrom
  dsimp only
  rw [if_neg (not_not_intro hok), if_pos rfl]
  generalize hm : (if ((n.unlink x).proc x).rts.remote = true then ((n.unlink x).proc x).message
    else (n.unlink x).sentBy x) = msg
  generalize hu : ((n.unlink x).modProc c fun p => { p with ubuf := msg }) = u
  have huc : (u.proc c).ubuf = msg ∧ (u.proc c).endpoint = (n.proc c).endpoint := by
    rw [← hu, modProc_same]
    exact ⟨rfl, rfl⟩
  have hux : u.proc x = (n.unlink x).proc x := by
    rw [← hu, modProc_of_ne _ _ hx]
  generalize hv : (if (u.proc x).rts.remote = true ∧ ¬ (u.proc x).rts.receiving = true then
    (u.genericAckLcl2rmt .sendAck x c 0).1 else u) = v
  have hvc : v.proc c = u.proc c := by
    rw [← hv]
    split
    · exact genericAckLcl2rmt_proc_of_ne _ hx.symm _ _ _
    · rfl
  have hvx : (v.proc x).endpoint = (u.proc x).endpoint ∧
      (v.proc x).rts.receiving = (u.proc x).rts.receiving ∧
      (v.proc x).getfrom = (u.proc x).getfrom := by
    have hfield : ∀ {α : Type} (g : Proc → α),
        (∀ p px, g { p with proxy := px } = g p) →
        (∀ p rts cmd, rts = { p.rts with rmtoper := true } →
          g { p with rts := rts, rmtcmd := cmd } = g p) → g (v.proc x) = g (u.proc x) := by
      intro α g hg hg'
      rw [← hv]
      split
      · refine (sproxyEnqueue_field g hg x).trans ?_
        rw [modProc_same]
        exact hg' _ _ _ rfl
      · rfl
    refine ⟨hfield Proc.endpoint (fun _ _ => rfl) fun _ _ _ _ => rfl,
      hfield (fun p => p.rts.receiving) (fun _ _ => rfl) fun _ _ _ h => by rw [h],
      hfield Proc.getfrom (fun _ _ => rfl) fun _ _ _ _ => rfl⟩
  rw [modProc_of_ne _ _ hx.symm, modProc_same, hvc, Proc.upIfReady_endpoint, Proc.upIfReady_rts]
  have hget : ∀ p : Proc, (p.endSend.upIfReady 0).getfrom = p.getfrom := fun p => by
    unfold Proc.upIfReady
    split <;> rfl
  rw [hget]
  refine ⟨huc.1.trans hm.symm, huc.2, hvx.1.trans ?_, hvx.2.1.trans ?_, rfl, hvx.2.2.trans ?_⟩
  all_goals rw [hux]; rfl

/-- **The first sender of the queue** gives a request iff it is in a sendrec to the receiver, and
its message has its own endpoint. -/
theorem request_of_queue_iff {timeout cp : ℤ} {n' : Node} (hc : n.Receiver c)
    (hx : (n.proc c).list.head? = some x)
    (h : n.miniRcvrqst c timeout cp = (n', .ret EMol.ok)) :
    RequestOf n' c x ↔
      (n.proc x).rts.receiving = true ∧ (n.proc x).getfrom = (n.proc c).endpoint ∧
        ((n.proc x).rts.remote = true → (n.proc x).message.source = (n.proc x).endpoint) := by
  have hne : x ≠ c := by
    rintro rfl
    exact hc.unqueued _ (List.mem_of_mem_head? hx)
  have hfrom : n.receiveFrom c x cp = (n', .ret EMol.ok) := by
    unfold miniRcvrqst at h
    split at h
    · rename_i hd
      exact absurd (Next.ret.inj (congrArg Prod.snd h)) hd
    split at h
    · exact absurd (Next.ret.inj (congrArg Prod.snd h)) (by decide)
    · rw [hx] at h
      exact h
  have hok : n.senderCheck c x = EMol.ok := by
    by_contra hno
    unfold receiveFrom at hfrom
    rw [if_pos hno] at hfrom
    exact hno (Next.ret.inj (congrArg Prod.snd hfrom))
  have hcp : cp = 0 := by
    unfold receiveFrom at hfrom
    rw [if_neg (not_not_intro hok)] at hfrom
    exact Next.ret.inj (congrArg Prod.snd hfrom)
  subst hcp
  obtain ⟨h1, h2, h3, h4, h5, h6⟩ := receiveFrom_request hne hok
  rw [hfrom] at h1 h2 h3 h4 h5 h6
  have hsource : (n'.proc c).ubuf.source = (n'.proc x).endpoint ↔
      ((n.proc x).rts.remote = true → (n.proc x).message.source = (n.proc x).endpoint) := by
    rw [h1, h3]
    split
    · rename_i hr
      simp [hr]
    · rename_i hr
      simp [hr, sentBy]
  have hawaits : n'.AwaitsReply c x ↔
      (n.proc x).rts.receiving = true ∧ (n.proc x).getfrom = (n.proc c).endpoint := by
    unfold AwaitsReply Proc.waitsExactly
    rw [h2, h4, h5, h6]
    simp
  constructor
  · exact fun hr => ⟨(hawaits.mp hr.awaits).1, (hawaits.mp hr.awaits).2, hsource.mp hr.source⟩
  · exact fun hr => ⟨hsource.mpr hr.2.2, hawaits.mpr ⟨hr.1, hr.2.1⟩⟩

end Queue

end Node

/-! ### Requests and others -/

/-- A plain message, a reply, a notification, or a request whose message cannot be copied. -/
def Op.plainTo (c cp : ℤ) : Op → Bool
  | .send dst | .reply dst | .notify _ dst _ => endpointP dst = c
  | .sendrec ep => decide (endpointP ep = c) && decide (cp ≠ 0)
  | .receive _ | .rcvrqst => false

namespace NodeAct

def plainTo (c : ℤ) : NodeAct → Bool
  | .call _ op _ _ cp | .wake _ op _ _ _ cp => op.plainTo c cp
  | .put2lcl _ h _ _ =>
    decide (endpointP h.dst = c) &&
      decide (h.cmd = .sendMsg ∨ h.cmd = .replyMsg ∨ h.cmd = .ntfyMsg)
  | _ => false

def requester : NodeAct → Option ℤ
  | .call q (.sendrec _) .. | .wake q (.sendrec _) .. => some q
  | .put2lcl _ h _ _ => if h.cmd = .sndrecMsg then some (endpointP h.src) else none
  | _ => none

def nowait : NodeAct → Bool
  | .call _ _ _ timeout _ | .wake _ _ _ timeout _ _ => timeout = timeoutNowait
  | _ => false

end NodeAct

namespace Node

/-- A process that begins a call, or that has waited for a migration, sends nothing. -/
def CallerIdle (n : Node) : NodeAct → Prop
  | .call q .. | .wake q _ .migr .. => (n.proc q).rts.sending = false
  | _ => True

def OnlyRequests (c timeout : ℤ) (s : Node × Next) : CallLabel → Prop
  | .other a => s.1.ByOthers c a ∧ emits c a = false ∧ s.1.CallerIdle a ∧
    ((s.1.proc c).rts.receiving = true → a.plainTo c = false)
  | .wake w _ => (s.1.proc c).mayWake timeout w

/-- The step has ended the wait of `c` with a request of `x`, which waits for the reply unless its
call may not wait. -/
structure BringsRequest (c : ℤ) (n : Node) (a : NodeAct) (n' : Node) (x : ℤ) : Prop where
  waited : (n.proc c).rts.receiving = true
  done : (n'.proc c).rts.receiving = false
  made : a.requester = some x
  source : (n'.proc c).ubuf.source = (n'.proc x).endpoint
  awaits : a.nowait = false → n'.AwaitsReply c x

section Steps

variable {c q ep timeout cp : ℤ} {K : Set Kind} {n n' : Node} {a : NodeAct} {r : Node × Next}

theorem Op.aims_of_not_plainTo {op : Op} {w : Prop} (hp : op.plainTo c cp = false) :
    ∀ k ∈ op.aims c cp w, k = .request ∧ ∃ ep, op = .sendrec ep := by
  intro k hk
  cases op with
  | send dst | reply dst | notify srcNr dst upd =>
    exact absurd hk.1 (of_decide_eq_false hp)
  | sendrec ep =>
    obtain ⟨hep, ⟨-, rfl⟩ | ⟨hcp, -⟩⟩ := hk
    · exact ⟨rfl, ep, rfl⟩
    · simp [Op.plainTo, hep, hcp] at hp
  | receive | rcvrqst => exact absurd hk (Set.notMem_empty k)

theorem aims_of_not_plainTo (hp : a.plainTo c = false) (he : emits c a = false)
    (hq : ∀ q, c ∉ (n.proc q).list) :
    ∀ k ∈ n.aims c a, k = .ready ∨ k = .mark ∨ k = .request ∧ a.requester ≠ none := by
  intro k hk
  cases a with
  | call q op m timeout cp | wake q op wait timeout w cp =>
    obtain ⟨rfl, ep, rfl⟩ := Op.aims_of_not_plainTo hp k hk
    exact .inr (.inr ⟨rfl, nofun⟩)
  | vcopy => exact .inl hk.2
  | vcopyWake q next w cp =>
    cases next with
    | ret code => exact absurd hk (Set.notMem_empty k)
    | sleep v len | waitMigr v nr => exact .inl hk.2
  | put2lcl px hdr pay cp =>
    obtain ⟨hd, hk⟩ := hk
    simp only [NodeAct.plainTo, hd, decide_true, Bool.true_and, decide_eq_false_iff_not,
      not_or] at hp
    split at hk
    · exact absurd ‹_› hp.1
    · exact absurd ‹_› hp.2.1
    · rename_i hcmd
      exact .inr (.inr ⟨hk, by simp [NodeAct.requester, hcmd]⟩)
    · exact absurd ‹_› hp.2.2
    · exact .inl hk
    · exact .inl hk
    · exact .inl hk
    · exact .inl hk
    · exact hk.elim
  | emit x ret pay cp =>
    obtain ⟨rfl, -⟩ := hk
    simp [emits] at he
  | migrate =>
    rcases hk with ⟨-, ⟨q, hl⟩, -⟩ | ⟨-, hk⟩
    · exact absurd hl (hq q)
    · exact .inl hk
  | _ => exact absurd hk (Set.notMem_empty k)

theorem Disturbs.waitsOn (h : Disturbs c K n n') (hK : ∀ k ∈ K, k = .ready ∨ k = .mark)
    (hr : (n.proc c).rts.receiving = true) : WaitsOn (n.proc c) (n'.proc c) :=
  h.desc.waitsOn hK hr

theorem sendrecLocal_brings (hq : q ≠ c) (hc : (n.proc c).rts.remote = false)
    (hep : endpointP ep = c) (hr : (n.proc c).rts.receiving = true)
    (hd : ((n.sendrecLocal q ep timeout 0).1.proc c).rts.receiving = false)
    (hget : (n.proc q).getfrom = (n.proc c).endpoint) :
    ((n.sendrecLocal q ep timeout 0).1.proc c).ubuf.source =
        ((n.sendrecLocal q ep timeout 0).1.proc q).endpoint ∧
      (timeout ≠ timeoutNowait → (n.proc q).rts.sending = false →
        (n.sendrecLocal q ep timeout 0).1.AwaitsReply c q) := by
  revert hd
  unfold sendrecLocal
  dsimp only
  rw [hep]
  split
  · rw [if_neg (not_not_intro rfl)]
    simp only [if_true]
    generalize hu : (n.modProc c fun p =>
      ({ p with ubuf := n.sentBy q }.endReceive).upIfReady 0) = u
    have huc : (u.proc c).ubuf = n.sentBy q ∧ (u.proc c).endpoint = (n.proc c).endpoint := by
      rw [← hu, modProc_same, Proc.upIfReady_ubuf, Proc.upIfReady_endpoint]
      exact ⟨rfl, rfl⟩
    have huq : u.proc q = n.proc q := by rw [← hu, modProc_of_ne _ _ hq]
    intro _
    unfold sleepOr
    split
    · rename_i hnow
      refine ⟨?_, fun hw => absurd hnow hw⟩
      simp only [modProc_of_ne _ _ hq.symm, modProc_same, huc.1, sentBy, huq, endSendrec,
        Proc.endSend, Proc.endReceive, Proc.wakeMigr_endpoint]
    · unfold AwaitsReply Proc.waitsExactly
      simp only [modProc_of_ne _ _ hq.symm, modProc_same, huc.1, huc.2, sentBy, huq]
      exact ⟨rfl, fun _ hs => ⟨rfl, hs, hget⟩⟩
  · intro hd
    refine absurd (hd.symm.trans (Disturbs.waitsOn (K := ∅) ?_ (by simp) hr).receiving)
      Bool.false_ne_true
    refine Part.disturbs (A := ∅) (?_ : Part q (.sendrec ep) ∅ n _) hq hc
    exact part_sleepOr (((Edits.refl n).self fun _ => by rfl).link rfl c) (by decide)
      fun _ _ h => .done (h.leaveQueue.self fun _ => by rfl) _

theorem sendrecReplay_brings (hq : q ≠ c) (hc : (n.proc c).rts.remote = false)
    (hcp : endpointP ep = c → cp = 0) (h : n.sendrecReplay q ep timeout cp = some r)
    (hr : (n.proc c).rts.receiving = true)
    (hd : (r.1.proc c).rts.receiving = false) :
    (r.1.proc c).ubuf.source = (r.1.proc q).endpoint ∧
      (timeout ≠ timeoutNowait → (n.proc q).rts.sending = false → r.1.AwaitsReply c q) := by
  have hep : endpointP ep = c := by
    by_contra hno
    have hdist := ((part_sendrecReplay (w := fun _ => True) h).disturbs hq hc).waitsOn
      (fun k hk => absurd hk.1 hno) hr
    exact Bool.false_ne_true (hd.symm.trans hdist.receiving)
  have hcp := hcp hep
  subst hcp
  generalize hu : (n.modProc q fun p => { p with rcode := EMol.ok, getfrom := ep }) = u at *
  have huc : u.proc c = n.proc c := by rw [← hu, modProc_of_ne _ _ hq.symm]
  have huq : (u.proc q).rts = (n.proc q).rts ∧ (u.proc q).getfrom = ep := by
    rw [← hu, modProc_same]
    exact ⟨rfl, rfl⟩
  have hquiet : ∀ {u v : Node}, Disturbs c ∅ u v → u.proc c = n.proc c → v.proc c ≠ r.1.proc c := by
    intro u v hdist huc heq
    have hw := hdist.waitsOn nofun (by rw [huc]; exact hr)
    rw [heq] at hw
    exact Bool.false_ne_true (hd.symm.trans hw.receiving)
  unfold sendrecReplay at h
  split at h
  · cases h
    exact absurd rfl (hquiet (.refl n) rfl)
  · exact absurd rfl (hquiet ((part_waitMigr (A := ∅) rfl h).disturbs hq hc) rfl)
  rename_i hdst
  dsimp only at h
  rw [hu] at h
  split at h
  · cases h
    exact absurd rfl (hquiet ((part_sendrecRemote (A := ∅)).disturbs hq (by rw [huc]; exact hc)) huc)
  cases h
  have hepc : (n.proc c).endpoint = ep := by
    by_contra hne
    rw [← hep] at hne
    simp [sendDst, if_pos hne] at hdst
  rw [← huc] at hr hepc
  obtain ⟨hsource, hawaits⟩ := sendrecLocal_brings hq (huc ▸ hc) hep hr hd
    (huq.2.trans hepc.symm)
  exact ⟨hsource, fun hw hs => hawaits hw (by rw [huq.1]; exact hs)⟩

def Brings (c q timeout : ℤ) (n' : Node) : Prop :=
  (n'.proc c).ubuf.source = (n'.proc q).endpoint ∧
    (timeout ≠ timeoutNowait → n'.AwaitsReply c q)

theorem call_brings {msg : Message} (hq : q ≠ c) (hc : (n.proc c).rts.remote = false)
    (hidle : (n.proc q).rts.sending = false) (hcp : endpointP ep = c → cp = 0)
    (h : n.call q (.sendrec ep) msg timeout cp = some r)
    (hr : (n.proc c).rts.receiving = true) (hd : (r.1.proc c).rts.receiving = false) :
    Brings c q timeout r.1 := by
  change n.miniSendrec q ep msg timeout cp = some r at h
  unfold miniSendrec at h
  split at h
  · cases h
    exact absurd (hd.symm.trans hr) Bool.false_ne_true
  split at h
  · cases h
  · have hrc : (n.modProc q fun p => { p with ubuf := msg }).proc c = n.proc c :=
      modProc_of_ne _ _ hq.symm
    obtain ⟨hsource, hawaits⟩ := sendrecReplay_brings hq (hrc ▸ hc) hcp h (hrc ▸ hr) hd
    refine ⟨hsource, fun hw => hawaits hw ?_⟩
    rw [modProc_same]
    exact hidle

theorem retry_brings {left : Node} {code : ℤ} (hq : q ≠ c)
    (hc : (n.proc c).rts.remote = false) (hcp : endpointP ep = c → cp = 0)
    (hleft : (left.proc c).rts = (n.proc c).rts)
    (hidle : (left.proc q).rts.sending = false)
    (h : (if code = EMol.ok then some (n, .ret code)
      else if code = EMol.migrate then left.sendrecReplay q ep timeout cp
      else some (left, .ret code)) = some r)
    (hr : (n.proc c).rts.receiving = true) (hd : (r.1.proc c).rts.receiving = false) :
    Brings c q timeout r.1 := by
  split at h
  · cases h
    exact absurd (hd.symm.trans hr) Bool.false_ne_true
  split at h
  · obtain ⟨hsource, hawaits⟩ := sendrecReplay_brings hq (hleft ▸ hc) hcp h (hleft ▸ hr) hd
    exact ⟨hsource, fun hw => hawaits hw hidle⟩
  · cases h
    exact absurd (hd.symm.trans (hleft ▸ hr)) Bool.false_ne_true

theorem leaveProxy_flags (hq : q ≠ c) :
    ((n.leaveProxy q).proc c).rts = (n.proc c).rts ∧
      ((n.leaveProxy q).proc q).rts.sending = false := by
  unfold leaveProxy
  rw [modProc_of_ne _ _ hq.symm, modProc_same]
  refine ⟨?_, rfl⟩
  split <;> rfl

theorem leaveQueue_flags (hq : q ≠ c) :
    ((n.leaveQueue q).proc c).rts = (n.proc c).rts ∧
      ((n.leaveQueue q).proc q).rts.sending = false := by
  unfold leaveQueue
  rw [modProc_of_ne _ _ hq.symm, modProc_same]
  refine ⟨?_, rfl⟩
  split <;> rfl

theorem wake_brings {wait : Wait} {w : ℤ} (hq : q ≠ c) (hc : (n.proc c).rts.remote = false)
    (hidle : wait = .migr → (n.proc q).rts.sending = false)
    (hcp : endpointP ep = c → cp = 0) (h : n.wake q (.sendrec ep) wait timeout w cp = some r)
    (hr : (n.proc c).rts.receiving = true) (hd : (r.1.proc c).rts.receiving = false) :
    Brings c q timeout r.1 := by
  unfold wake at h
  dsimp only at h
  generalize hu : n.modProc q (fun p => { p with
      rcode := (n.proc q).sleepResult timeout w
      pseudosem := if (n.proc q).sleepResult timeout w ≠ EMol.ok ∧ p.pseudosem < 0
        then p.pseudosem + 1 else p.pseudosem }) = u at h
  have huc : u.proc c = n.proc c := by rw [← hu, modProc_of_ne _ _ hq.symm]
  split at h
  · cases h
    rw [huc] at hd
    exact absurd (hd.symm.trans hr) Bool.false_ne_true
  generalize hv : u.modProc q Proc.wakeMigr = v at h
  have hvp : v.proc c = n.proc c := by rw [← hv, modProc_of_ne _ _ hq.symm, huc]
  rw [← hvp] at hc
  have hvc : (v.proc c).rts.receiving = true := hvp ▸ hr
  have hvq : (v.proc q).rts.sending = (n.proc q).rts.sending := by
    rw [← hv, modProc_same, ← hu, modProc_same]
    exact congrArg Core.sending (Proc.wakeMigr_core _)
  have hret : ∀ {code : ℤ}, some (v, Next.ret code) ≠ some r := by
    rintro code hcode
    cases hcode
    exact Bool.false_ne_true (hd.symm.trans hvc)
  cases wait with
  | migr =>
    obtain ⟨hsource, hawaits⟩ := sendrecReplay_brings hq hc hcp h hvc hd
    exact ⟨hsource, fun hw => hawaits hw (hvq.trans (hidle rfl))⟩
  | remote =>
    refine retry_brings hq hc hcp ?_ ?_ h hvc hd
    · rw [modProc_of_ne _ _ hq.symm]
      exact (leaveProxy_flags hq).1
    · rw [modProc_same]
      exact (leaveProxy_flags hq).2
  | queued =>
    refine retry_brings hq hc hcp ?_ ?_ h hvc hd
    · rw [modProc_of_ne _ _ hq.symm]
      exact (leaveQueue_flags hq).1
    · rw [modProc_same]
      exact (leaveQueue_flags hq).2
  | answer =>
    simp only [resume] at h
    split at h
    · exact absurd h hret
    · cases h
      rw [modProc_of_ne _ _ hq.symm] at hd
      exact absurd (hd.symm.trans hvc) Bool.false_ne_true
  | message => cases h

theorem put2lcl_brings {px : ℤ} {h : Hdr} {pay : Mem} {r : Node × ℤ} (hf : Foreign n c h)
    (hc : (n.proc c).rts.remote = false) (hcmd : h.cmd = .sndrecMsg)
    (heq : n.put2lcl px h pay cp = some r) (hr : (n.proc c).rts.receiving = true)
    (hd : (r.1.proc c).rts.receiving = false) :
    (r.1.proc c).ubuf.source = (r.1.proc (endpointP h.src)).endpoint ∧
      r.1.AwaitsReply c (endpointP h.src) := by
  have hno : ∀ {m : Node}, Disturbs c ∅ n m → m ≠ r.1 := by
    rintro m hm rfl
    exact Bool.false_ne_true (hd.symm.trans (hm.waitsOn nofun hr).receiving)
  unfold put2lcl at heq
  dsimp only at heq
  split at heq
  · cases heq
    exact absurd rfl (hno (.refl n))
  split at heq
  · cases heq
  split at heq
  · cases heq
    refine absurd rfl (hno ?_)
    refine (edits_put2lclReject (A := ∅) (a := .command n h) rfl (.inl rfl) _).disturbs ?_ ?_ hc
    · rintro (hx | ⟨hx, -⟩)
      · exact hf.src hx.symm
      · exact Cmd.noConfusion (hx.symm.trans hcmd)
    · exact fun hx => hx.2.2 (hf.honest hx.2.1)
  rename_i hcheck
  rw [not_not] at hcheck
  have hsend : (n.proc (endpointP h.src)).rts.sending = false := by
    by_contra hs
    rw [Bool.not_eq_false] at hs
    unfold put2lclCheck at hcheck
    dsimp only at hcheck
    split_ifs at hcheck
    all_goals exact absurd hcheck (by decide)
  have hsource := hf.honest (by rw [hcmd]; rfl)
  simp only [put2lclCmd, hcmd] at heq
  cases heq
  revert hd hno
  unfold sendRmt2lcl
  split
  · split
    · intro _ hno
      exact absurd rfl (hno (.refl n))
    · intro _ hno
      have hl : endpointP h.dst = c := by
        by_contra hl
        refine absurd rfl (hno ?_)
        dsimp only
        refine Disturbs.other (Disturbs.other ?_ hf.src fun _ => rfl) hl fun p => ?_
        · exact (Disturbs.refl n).other hl fun _ => by rfl
        · exact congrArg Prod.fst (Proc.upIfReady_links _ _)
      subst hl
      unfold AwaitsReply Proc.waitsExactly
      simp only [modProc_same, modProc_of_ne _ _ hf.src, modProc_of_ne _ _ (Ne.symm hf.src),
        Proc.upIfReady_ubuf, Proc.upIfReady_endpoint]
      exact ⟨hsource, trivial, hsend, rfl⟩
  · intro _ hno
    exact absurd rfl (hno (((Disturbs.refl n).other hf.src fun _ => by rfl).addTail hf.src _))

theorem brings_request (ha : n.ByOthers c a) (hc : (n.proc c).rts.remote = false)
    (hused : (n.proc c).rts.slotFree = false) (hq : ∀ q, c ∉ (n.proc q).list)
    (he : emits c a = false) (hidle : n.CallerIdle a) (hp : a.plainTo c = false)
    (h : n.act a = some n') (hr : (n.proc c).rts.receiving = true)
    (hd : (n'.proc c).rts.receiving = false) : ∃ x, BringsRequest c n a n' x := by
  have haims := aims_of_not_plainTo hp he hq
  have hmade : a.requester ≠ none := by
    intro hnone
    have hw := (disturbs_act ha hc hused h).waitsOn
      (fun k hk => (haims k hk).imp_right fun h => h.resolve_right fun h => h.2 hnone) hr
    exact Bool.false_ne_true (hd.symm.trans hw.receiving)
  have hsendrec : ∀ {ep cp : ℤ}, Op.plainTo c cp (.sendrec ep) = false → endpointP ep = c →
      cp = 0 := by
    intro ep cp hp hep
    simpa [Op.plainTo, hep] using hp
  cases a with
  | call q op m timeout cp =>
    obtain ⟨r, hcall, rfl⟩ := Option.map_eq_some_iff.mp h
    cases op with
    | sendrec ep =>
      obtain ⟨hsource, hawaits⟩ := call_brings ha hc hidle (hsendrec hp) hcall hr hd
      exact ⟨q, hr, hd, rfl, hsource, fun hn => hawaits (of_decide_eq_false hn)⟩
    | send | reply | receive | rcvrqst | notify => exact absurd rfl hmade
  | wake q op wait timeout w cp =>
    obtain ⟨r, hwake, rfl⟩ := Option.map_eq_some_iff.mp h
    cases op with
    | sendrec ep =>
      obtain ⟨hsource, hawaits⟩ := wake_brings ha hc (by rintro rfl; exact hidle) (hsendrec hp)
        hwake hr hd
      exact ⟨q, hr, hd, rfl, hsource, fun hn => hawaits (of_decide_eq_false hn)⟩
    | send | reply | receive | rcvrqst | notify => exact absurd rfl hmade
  | put2lcl px hdr pay cp =>
    obtain ⟨r, hput, rfl⟩ := Option.map_eq_some_iff.mp h
    have hcmd : hdr.cmd = .sndrecMsg := by
      by_contra hno
      exact hmade (if_neg hno)
    obtain ⟨hsource, hawaits⟩ := put2lcl_brings ha hc hcmd hput hr hd
    exact ⟨_, hr, hd, if_pos hcmd, hsource, fun _ => hawaits⟩
  | _ => exact absurd rfl hmade

end Steps

/-! ### Runs -/

/-- A step of a run from `r` has ended the wait of `c` with a request, and `c` still has its
message. -/
def Requested (c timeout : ℤ) (r s : Node × Next) : Prop :=
  ∃ u a v x, Reachable (callStep c timeout) (OnlyRequests c timeout) r u ∧
    OnlyRequests c timeout u (.other a) ∧ u.1.act a = some v ∧ BringsRequest c u.1 a v x ∧
    Reachable (callStep c timeout) (OnlyRequests c timeout) (v, u.2) s ∧
    (s.1.proc c).ubuf = (v.proc c).ubuf

inductive Progress (c timeout : ℤ) (r s : Node × Next) : Prop
  | blocked (next : s.2 = .sleep .rcvrqst .message) (receiving : (s.1.proc c).rts.receiving = true)
      (asleep : (s.1.proc c).pseudosem < 0 ∨ (s.1.proc c).rcode < 0)
  | served (idle : (s.1.proc c).rts.receiving = false) (h : Requested c timeout r s)
  | failed (code : ℤ) (next : s.2 = .ret code) (idle : (s.1.proc c).rts.receiving = false)
      (h : code ≠ EMol.ok)

structure Serving (c timeout : ℤ) (r s : Node × Next) : Prop where
  receiver : s.1.Receiver c
  op (op : Op) (wait : Wait) : s.2 = .sleep op wait → op = .rcvrqst ∧ wait = .message
  progress : Progress c timeout r s

section Runs

variable {c timeout cp w : ℤ} {n n' : Node} {r s t : Node × Next}

theorem Requested.step {l : CallLabel} (h : Requested c timeout r s)
    (hp : OnlyRequests c timeout s l) (ht : callStep c timeout s l = some t)
    (hbuf : (t.1.proc c).ubuf = (s.1.proc c).ubuf) : Requested c timeout r t := by
  obtain ⟨u, a, v, x, hu, ha, hv, hb, hrun, hs⟩ := h
  exact ⟨u, a, v, x, hu, ha, hv, hb, hrun.step hp ht, hbuf.trans hs⟩

theorem Disturbs.receiver {K : Set Kind} (h : Disturbs c K n n') (hn : n.Receiver c)
    (hs : (n'.proc c).rts.sending = false) : n'.Receiver c :=
  ⟨h.isLocal hn.isLocal, h.desc.sameProcess.used hn.used, hs, fun q hq => hn.unqueued q (h.list q hq)⟩

theorem Serving.other {a : NodeAct} (hs : Reachable (callStep c timeout) (OnlyRequests c timeout) r s)
    (h : Serving c timeout r s) (hp : OnlyRequests c timeout s (.other a))
    (hn : s.1.act a = some n') : Serving c timeout r (n', s.2) := by
  have hd := disturbs_act hp.1 h.receiver.isLocal h.receiver.used hn
  have hidle : (s.1.proc c).rts.receiving = false → StaysIdle (s.1.proc c) (n'.proc c) := fun hr =>
    hd.desc.staysIdle hr h.receiver.idle
  cases h.progress with
  | blocked next receiving asleep =>
    rcases hd.desc.ends receiving h.receiver.idle with hw | ⟨_, -, -, -, q, q', -, -, hst⟩
    · have hsend : (n'.proc c).rts.sending = false :=
        Bool.eq_false_iff.mpr fun hs => Bool.eq_false_iff.mp h.receiver.idle (hw.sending hs)
      exact ⟨hd.receiver h.receiver hsend, h.op, .blocked next hw.receiving (hw.asleep asleep)⟩
    · obtain ⟨ha, he, hcaller, hplain⟩ := hp
      obtain ⟨x, hx⟩ := brings_request ha h.receiver.isLocal h.receiver.used h.receiver.unqueued he
        hcaller (hplain receiving) hn receiving hst.receiving
      exact ⟨hd.receiver h.receiver hst.sending, h.op,
        .served hst.receiving ⟨s, a, n', x, hs, ⟨ha, he, hcaller, hplain⟩, hn, hx, .init, rfl⟩⟩
  | served idle hreq =>
    have hst := hidle idle
    exact ⟨hd.receiver h.receiver hst.sending, h.op,
      .served hst.receiving (hreq.step hp (congrArg (Option.map _) hn) hst.ubuf)⟩
  | failed code next idle hcode =>
    have hst := hidle idle
    exact ⟨hd.receiver h.receiver hst.sending, h.op, .failed code next hst.receiving hcode⟩

theorem Receiver.modProc {f : Proc → Proc} (h : n.Receiver c)
    (hf : ∀ p, (f p).core.remote = p.core.remote ∧ (f p).core.slotFree = p.core.slotFree ∧
      (f p).core.sending = p.core.sending ∧ (f p).list = p.list) :
    (n.modProc c f).Receiver c := by
  refine ⟨?_, ?_, ?_, fun q hq => h.unqueued q ?_⟩
  · rw [modProc_same]
    exact (hf _).1.trans h.isLocal
  · rw [modProc_same]
    exact (hf _).2.1.trans h.used
  · rw [modProc_same]
    exact (hf _).2.2.1.trans h.idle
  · rwa [modProc_field c q Proc.list fun p => (hf p).2.2.2] at hq

theorem Serving.wake (h : Serving c timeout r s) (hs : s.2 = .sleep .rcvrqst .message)
    (hw : (s.1.proc c).mayWake timeout w) (hl : callStep c timeout s (.wake w cp) = some t)
    (ht : s.1.wake c .rcvrqst .message timeout w cp = some t) : Serving c timeout r t := by
  unfold Node.wake at ht
  dsimp only at ht
  generalize hcode : (s.1.proc c).sleepResult timeout w = code at ht
  have hneg : code ≠ EMol.ok → code < 0 := fun hne => hcode ▸ Proc.sleepResult_neg (hcode ▸ hne)
  generalize hu : s.1.modProc c (fun p => { p with
      rcode := code
      pseudosem := if code ≠ EMol.ok ∧ p.pseudosem < 0 then p.pseudosem + 1 else p.pseudosem })
    = u at ht
  have hru : u.Receiver c := hu ▸ h.receiver.modProc fun _ => ⟨rfl, rfl, rfl, rfl⟩
  have huc : (u.proc c).rts = (s.1.proc c).rts ∧ (u.proc c).ubuf = (s.1.proc c).ubuf ∧
      (u.proc c).rcode = code := by
    rw [← hu, modProc_same]
    exact ⟨rfl, rfl, rfl⟩
  split at ht
  · rename_i hsleep
    cases ht
    refine ⟨hru, fun _ _ heq => by cases heq; exact ⟨rfl, rfl⟩, ?_⟩
    cases h.progress with
    | blocked next receiving asleep =>
      refine .blocked rfl (by rw [huc.1]; exact receiving) (.inr ?_)
      rw [huc.2.2]
      exact hneg hsleep.1
    | served idle hreq =>
      exact .served (by rw [huc.1]; exact idle) (hreq.step (l := .wake w cp) hw hl huc.2.1)
    | failed code next => rw [hs] at next; cases next
  · cases ht
    have hrt : ((u.modProc c Proc.wakeMigr).modProc c Proc.endReceive).Receiver c := by
      refine (hru.modProc fun p => ?_).modProc fun _ => ⟨rfl, rfl, rfl, rfl⟩
      rw [p.wakeMigr_core]
      exact ⟨rfl, rfl, rfl, congrArg (fun l => l.1.1.1) p.wakeMigr_outer⟩
    refine ⟨hrt, nofun, ?_⟩
    have hidle : (((u.modProc c Proc.wakeMigr).modProc c Proc.endReceive).proc c).rts.receiving =
        false := by
      rw [modProc_same]
      rfl
    have hubuf : (((u.modProc c Proc.wakeMigr).modProc c Proc.endReceive).proc c).ubuf =
        (s.1.proc c).ubuf := by
      rw [modProc_same, modProc_same, ← huc.2.1]
      exact congrArg Core.ubuf (u.proc c).wakeMigr_core
    by_cases hok : code = EMol.ok
    · obtain ⟨hrc, hsem⟩ := Proc.sleepResult_eq_ok hw (hcode.trans hok)
      cases h.progress with
      | blocked next receiving asleep => omega
      | served idle hreq => exact .served hidle (hreq.step (l := .wake w cp) hw hl hubuf)
      | failed code next => rw [hs] at next; cases next
    · exact .failed code rfl hidle hok

theorem Serving.step {l : CallLabel}
    (hs : Reachable (callStep c timeout) (OnlyRequests c timeout) r s) (h : Serving c timeout r s)
    (hp : OnlyRequests c timeout s l) (ht : callStep c timeout s l = some t) :
    Serving c timeout r t := by
  cases l with
  | other a =>
    obtain ⟨n', hn, rfl⟩ := Option.map_eq_some_iff.mp ht
    exact h.other hs hp hn
  | wake w cp =>
    have hwake := ht
    unfold callStep at hwake
    dsimp only at hwake
    split at hwake
    · cases hwake
    · rename_i op wait hnext
      obtain ⟨rfl, rfl⟩ := h.op op wait hnext
      exact h.wake hnext hp ht hwake

theorem serving_of_reachable (h : Serving c timeout r r)
    (hs : Reachable (callStep c timeout) (OnlyRequests c timeout) r s) : Serving c timeout r s := by
  induction hs with
  | init => exact h
  | step hs hp ht ih => exact ih.step hs hp ht

theorem serving_of_sleep {op : Op} {wait : Wait} (hc : n.Receiver c)
    (hr : n.miniRcvrqst c timeout cp = r) (hs : r.2 = .sleep op wait) :
    Serving c timeout r r := by
  have hno : ∀ {m : Node} {code : ℤ}, (m, Next.ret code) ≠ r := by
    rintro m code rfl
    cases hs
  unfold miniRcvrqst at hr
  split at hr
  · exact absurd hr hno
  split at hr
  · exact absurd hr hno
  split at hr
  · unfold receiveFrom at hr
    dsimp only at hr
    split at hr <;> exact absurd hr hno
  · unfold sleepOr at hr
    split at hr
    · exact absurd hr hno
    · subst hr
      have hblock : (n.blockReceiving c anyEp).Receiver c :=
        hc.modProc fun _ => ⟨rfl, rfl, rfl, rfl⟩
      refine ⟨hblock.modProc fun _ => ⟨rfl, rfl, rfl, rfl⟩,
        fun _ _ h => by cases h; exact ⟨rfl, rfl⟩, .blocked rfl ?_ (.inl ?_)⟩
      · rw [modProc_same, blockReceiving, modProc_same]
        rfl
      · rw [modProc_same]
        exact (by decide : (-1 : ℤ) < 0)

theorem head_of_rcvrqst (h : n.miniRcvrqst c timeout cp = (n', .ret EMol.ok)) :
    ∃ x, (n.proc c).list.head? = some x := by
  unfold miniRcvrqst at h
  split at h
  · rename_i hd
    exact absurd (Next.ret.inj (congrArg Prod.snd h)) hd
  split at h
  · exact absurd (Next.ret.inj (congrArg Prod.snd h)) (by decide)
  split at h
  · exact ⟨_, ‹_›⟩
  · unfold sleepOr at h
    split at h
    · exact absurd (Next.ret.inj (congrArg Prod.snd h)) (by decide)
    · cases h

end Runs

/-! ### A plain message -/

def rqstSample : Node where
  conf := Conf.sample 0
  proc := fun q => if q = 5 then Proc.sample 0 5 {} else if q = 6 then Proc.sample 0 6 {} else {}
  sproxy := Proc.sampleProxy
  rproxy := Proc.sampleProxy

theorem rqstSample_receiver : rqstSample.Receiver 5 := by
  refine ⟨rfl, rfl, rfl, fun q => ?_⟩
  unfold rqstSample
  dsimp only
  split_ifs <;> exact List.not_mem_nil

def rqstSampleServed (op : Op) : Option (Node × Next) :=
  (callStep 5 100 (rqstSample.miniRcvrqst 5 100 0) (.other (.call 6 op {} 100 0))).bind fun s =>
    if (s.1.proc 5).mayWake 100 1 then callStep 5 100 s (.wake 1 0) else none

end Node

end MolIpc
