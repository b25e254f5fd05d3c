import MolIpc.Ipc.Calls

/-!
How `mm_mini_receive` serves the queue of its caller when nobody disturbs it: the first sender
that matches leaves the queue, hands over its message, and is woken up, left waiting for its
answer, or acknowledged to its node; the others keep their places. With no such sender the caller
blocks.

The call refuses a source in the upper part of the table, whose messages `mm_mini_send` has
nevertheless queued, and does not look at the result of queueing the acknowledge.
-/

namespace MolIpc

namespace Node

/-! ### The queue -/

def Matches (n : Node) (src y : ℤ) : Prop := (n.proc y).endpoint = src ∨ src = anyEp

instance (n : Node) (src y : ℤ) : Decidable (n.Matches src y) := by unfold Matches; infer_instance

/-- `x` is the first in the queue of `c` that a receive from `src` accepts, between `l₁` and `l₂`.
-/
structure First (n : Node) (c src : ℤ) (l₁ : List ℤ) (x : ℤ) (l₂ : List ℤ) : Prop where
  queue : (n.proc c).list = l₁ ++ x :: l₂
  before : ∀ y ∈ l₁, ¬ n.Matches src y
  accepted : n.Matches src x

/-- `c` may receive, has no notification pending, and its queue holds processes that send to it,
each linked once. -/
structure Receives (n : Node) (c : ℤ) : Prop where
  running : (n.proc c).rts = Rts.running
  wokenup : (n.proc c).misc.wokenup = false
  dc : n.dcCheck = EMol.ok
  pending : ∀ id : ℕ, (id : ℤ) < n.conf.dcNrSysprocs → (n.proc c).notifyPending id = false
  nodup : (n.proc c).list.Nodup
  self : c ∉ (n.proc c).list
  bound : ∀ x ∈ (n.proc c).list, (n.proc x).rts.slotFree = false
  sending : ∀ x ∈ (n.proc c).list,
    (n.proc x).rts.sending = true ∧ (n.proc x).sendto = (n.proc c).endpoint
  alone : ∀ x ∈ (n.proc c).list,
    (∀ q, q ≠ c → x ∉ (n.proc q).list) ∧ ∀ px, x ∉ (n.sproxy px).list

/-- `src` is `ANY`, or another bound process of the DC, with its node connected to this one. -/
structure Names (n : Node) (c src : ℤ) : Prop where
  inRange : src ≠ anyEp → n.conf.inRange (endpointP src)
  other : src ≠ anyEp → (n.proc c).endpoint ≠ src
  bound : src ≠ anyEp → (n.proc (endpointP src)).rts.slotFree = false
  endpoint : src ≠ anyEp → (n.proc (endpointP src)).endpoint = src
  node : src ≠ anyEp →
    0 ≤ (n.proc (endpointP src)).nodeid ∧ (n.proc (endpointP src)).nodeid < n.conf.dNrNodes
  proxy : src ≠ anyEp → (n.proc (endpointP src)).rts.remote = true →
    n.rproxyCheck (n.proc (endpointP src)).nodeid = EMol.ok

/-! ### What the call is to do -/

def AckDue (n : Node) (x : ℤ) : Prop :=
  (n.proc x).rts.remote = true ∧ (n.proc x).rts.receiving = false

instance (n : Node) (x : ℤ) : Decidable (n.AckDue x) := by unfold AckDue; infer_instance

/-- The message of a sender in a queue; a remote one has left it with its descriptor. -/
def queuedMessage (n : Node) (x : ℤ) : Message :=
  if (n.proc x).rts.remote then (n.proc x).message else n.sentBy x

/-- The sender `x` between `l₁` and `l₂` is served with the result `cp` of the copy. -/
structure Serves (n : Node) (c cp : ℤ) (l₁ : List ℤ) (x : ℤ) (l₂ : List ℤ) (n' : Node) : Prop where
  receiver : n'.proc c = { n.proc c with
    list := l₁ ++ l₂, ubuf := if cp = 0 then n.queuedMessage x else (n.proc c).ubuf }
  flags : (n'.proc x).rts = { (n.proc x).rts with
    sending := false, rmtoper := (n.proc x).rts.rmtoper || decide (n.AckDue x) }
  sendto : (n'.proc x).sendto = noneEp
  getfrom : (n'.proc x).getfrom = (n.proc x).getfrom
  woken : (n.proc x).rts = { sending := true } →
    (n'.proc x).rcode = cp ∧ (n'.proc x).pseudosem = (n.proc x).pseudosem + 1
  waits : (n.proc x).rts.receiving = true →
    (n'.proc x).rcode = (n.proc x).rcode ∧ (n'.proc x).pseudosem = (n.proc x).pseudosem
  acked : n.AckDue x →
    (n'.proc x).rmtcmd.cmd = .sendAck ∧ (n'.proc x).rmtcmd.rcode = cp ∧
      (n'.proc x).rmtcmd.dst = (n.proc x).endpoint ∧
      ∀ px, (n'.sproxy px).list =
        if px = n.conf.nProxies (n.proc x).nodeid then (n.sproxy px).list ++ [x]
        else (n.sproxy px).list
  silent : ¬ n.AckDue x → n'.sproxy = n.sproxy
  others : ∀ q, q ≠ c → q ≠ x → n'.proc q = n.proc q

/-- The caller blocks in a receive from `src`, or gives up at once if it may not wait. -/
def Blocks (n : Node) (c src timeout : ℤ) (r : Node × Next) : Prop :=
  (r.1.proc c).list = (n.proc c).list ∧
    if timeout = timeoutNowait then r.2 = .ret EMol.again
    else r.2 = .sleep (.receive src) .message ∧ (r.1.proc c).rts.receiving = true ∧
      (r.1.proc c).getfrom = src ∧ r.1.sproxy = n.sproxy ∧
      ∀ q, q ≠ c → r.1.proc q = n.proc q

def ServesQueue (n : Node) (c src timeout cp : ℤ) : Prop :=
  (∃ l₁ x l₂, First n c src l₁ x l₂ ∧ (n.miniReceive c src timeout cp).2 = .ret cp ∧
      Serves n c cp l₁ x l₂ (n.miniReceive c src timeout cp).1) ∨
    (∀ y ∈ (n.proc c).list, ¬ n.Matches src y) ∧
      Blocks n c src timeout (n.miniReceive c src timeout cp)

def SourceRange (n : Node) (src : ℤ) : Prop :=
  src = anyEp ∨ endpointP src < n.conf.dcNrProcs - n.conf.dcNrTasks

def AckPossible (n : Node) (c src : ℤ) : Prop :=
  ∀ l₁ x l₂, First n c src l₁ x l₂ → n.AckDue x →
    (n.sproxy (n.conf.nProxies (n.proc x).nodeid)).rts ≠ Rts.onlyFree

/-! ### The checks -/

section Checks

variable {n : Node} {c src : ℤ}

theorem receiveEntry_of_names (hr : Receives n c) (hv : Names n c src) (hs : n.SourceRange src) :
    n.receiveEntry c src = EMol.ok := by
  unfold receiveEntry
  rw [if_neg (not_not_intro hr.dc)]
  split
  · rfl
  · rename_i hany
    have hrange : -n.conf.dcNrTasks ≤ endpointP src ∧
        endpointP src < n.conf.dcNrProcs - n.conf.dcNrTasks :=
      ⟨(hv.inRange hany).1, hs.resolve_left hany⟩
    simp only [hrange, not_true, if_false, hv.other hany, hv.bound hany, hv.endpoint hany,
      hv.node hany, Bool.false_eq_true, and_self, ne_eq]
    split
    · exact hv.proxy hany ‹_›
    · rfl

theorem receiveEntry_of_upper (hr : Receives n c) (hs : ¬ n.SourceRange src) :
    n.receiveEntry c src = EMol.range := by
  unfold SourceRange at hs
  rw [not_or] at hs
  unfold receiveEntry
  rw [if_neg (not_not_intro hr.dc), if_neg hs.1, if_pos fun h => hs.2 h.2]

theorem pendingBit_eq_none (hr : Receives n c) : n.pendingBit c = none := by
  unfold pendingBit
  rw [List.find?_eq_none]
  intro id hid
  rw [List.mem_range] at hid
  rw [hr.pending id (by omega)]
  exact Bool.false_ne_true

theorem firstSender_eq_some {x : ℤ} (h : n.firstSender c src = some x) :
    ∃ l₁ l₂, First n c src l₁ x l₂ := by
  obtain ⟨hx, l₁, l₂, hl, hbefore⟩ := List.find?_eq_some_iff_append.1 h
  refine ⟨l₁, l₂, hl, fun y hy hm => ?_, of_decide_eq_true hx⟩
  have hno := hbefore y hy
  rw [Bool.not_eq_true', decide_eq_false_iff_not] at hno
  exact hno hm

theorem firstSender_eq_none (h : n.firstSender c src = none) :
    ∀ y ∈ (n.proc c).list, ¬ n.Matches src y := by
  intro y hy hm
  exact List.find?_eq_none.1 h y hy (decide_eq_true hm)

theorem First.mem {l₁ l₂ : List ℤ} {x : ℤ} (h : First n c src l₁ x l₂) :
    x ∈ (n.proc c).list := by
  rw [h.queue]
  exact List.mem_append_right _ List.mem_cons_self

theorem First.unique {l₁ l₁' l₂ l₂' : List ℤ} {x x' : ℤ} (h : First n c src l₁ x l₂)
    (h' : First n c src l₁' x' l₂') : l₁ = l₁' ∧ x = x' ∧ l₂ = l₂' := by
  have hl : l₁ ++ x :: l₂ = l₁' ++ x' :: l₂' := h.queue.symm.trans h'.queue
  rcases List.append_eq_append_iff.1 hl with ⟨m, hm, hm'⟩ | ⟨m, hm, hm'⟩
  · cases m with
    | nil => simp_all
    | cons y m =>
      rw [List.cons_append, List.cons.injEq] at hm'
      refine absurd h.accepted (h'.before x ?_)
      rw [hm, ← hm'.1]
      simp
  · cases m with
    | nil => simp_all
    | cons y m =>
      rw [List.cons_append, List.cons.injEq] at hm'
      refine absurd h'.accepted (h.before x' ?_)
      rw [hm, ← hm'.1]
      simp

theorem miniReceive_of_ready (hr : Receives n c) (hv : Names n c src) (hs : n.SourceRange src)
    (timeout cp : ℤ) :
    n.miniReceive c src timeout cp =
      match n.firstSender c src with
      | some x => n.receiveFrom c x cp
      | none =>
        (n.blockReceiving c src).sleepOr c timeout (.sleep (.receive src) .message)
          fun n code => n.receiveEnd c code cp := by
  unfold miniReceive
  rw [if_neg (not_not_intro (receiveEntry_of_names hr hv hs)),
    if_neg (fun h => absurd h.1 (by simp [hr.wokenup]))]
  cases n.firstSender c src <;> simp only [pendingBit_eq_none hr]

end Checks

/-! ### Serving a sender -/

section Serve

variable {n : Node} {c src cp : ℤ} {l₁ l₂ : List ℤ} {x : ℤ}

def handOver (n : Node) (c x cp : ℤ) : Node :=
  if cp = 0 then (n.unlink x).modProc c fun p => { p with ubuf := n.queuedMessage x }
  else n.unlink x

theorem receiveFrom_of_check (hcx : x ≠ c) (hcheck : n.senderCheck c x = EMol.ok) :
    n.receiveFrom c x cp =
      ((if n.AckDue x then ((n.handOver c x cp).genericAckLcl2rmt .sendAck x c cp).1
        else n.handOver c x cp).modProc x fun p => p.endSend.upIfReady cp, .ret cp) := by
  have hflags : ((n.handOver c x cp).proc x).rts = (n.proc x).rts := by
    unfold handOver
    split
    · rw [modProc_of_ne _ _ hcx]
      rfl
    · rfl
  have hdue : (((n.handOver c x cp).proc x).rts.remote = true ∧
      ¬ ((n.handOver c x cp).proc x).rts.receiving = true) ↔ n.AckDue x := by
    unfold AckDue
    rw [hflags, Bool.not_eq_true]
  unfold receiveFrom
  rw [if_neg (not_not_intro hcheck)]
  change ((if ((n.handOver c x cp).proc x).rts.remote = true ∧
    ¬ ((n.handOver c x cp).proc x).rts.receiving = true then
      ((n.handOver c x cp).genericAckLcl2rmt .sendAck x c cp).1 else n.handOver c x cp).modProc x
    (fun p => p.endSend.upIfReady cp), Next.ret cp) = _
  rw [if_congr hdue rfl rfl]

theorem receiveFrom_eq (hr : Receives n c) (hx : x ∈ (n.proc c).list) :
    n.receiveFrom c x cp =
      ((if n.AckDue x then ((n.handOver c x cp).genericAckLcl2rmt .sendAck x c cp).1
        else n.handOver c x cp).modProc x fun p => p.endSend.upIfReady cp, .ret cp) := by
  refine receiveFrom_of_check (fun h => hr.self (h ▸ hx)) ?_
  simp [senderCheck, hr.bound x hx, hr.sending x hx]

theorem receiveFrom_self {n' : Node} (hcx : x ≠ c)
    (h : n.receiveFrom c x cp = (n', .ret EMol.ok)) :
    n'.proc c = { n.proc c with
      list := (n.proc c).list.filter (· ≠ x), ubuf := n.queuedMessage x } := by
  have hcheck : n.senderCheck c x = EMol.ok := by
    by_contra hno
    unfold receiveFrom at h
    rw [if_pos hno] at h
    exact hno (Next.ret.inj (congrArg Prod.snd h))
  rw [receiveFrom_of_check hcx hcheck] at h
  have hcp : cp = 0 := Next.ret.inj (congrArg Prod.snd h)
  subst hcp
  obtain rfl : _ = n' := congrArg Prod.fst h
  rw [modProc_of_ne _ _ hcx.symm]
  have hover : (n.handOver c x 0).proc c = { n.proc c with
      list := (n.proc c).list.filter (· ≠ x), ubuf := n.queuedMessage x } := by
    rw [handOver, if_pos rfl, modProc_same]
    rfl
  split
  · rw [genericAckLcl2rmt_proc_of_ne _ hcx.symm]
    exact hover
  · exact hover

theorem filter_eq (hr : Receives n c) (hf : First n c src l₁ x l₂) :
    (n.proc c).list.filter (· ≠ x) = l₁ ++ l₂ := by
  have hn := hr.nodup
  rw [hf.queue] at hn ⊢
  obtain ⟨hn₁, hn₂, hdis⟩ := List.nodup_append.1 hn
  have h₁ : ∀ y ∈ l₁, y ≠ x := fun y hy => hdis y hy x List.mem_cons_self
  have h₂ : ∀ y ∈ l₂, y ≠ x := fun y hy h => (List.nodup_cons.1 hn₂).1 (h ▸ hy)
  rw [List.filter_append, List.filter_cons_of_neg (by simp),
    List.filter_eq_self.2 (by simpa using h₁), List.filter_eq_self.2 (by simpa using h₂)]

theorem unlink_list_of_not_mem {l : List ℤ} (h : x ∉ l) : l.filter (· ≠ x) = l := by
  rw [List.filter_eq_self]
  intro y hy
  simpa using fun he : y = x => h (he ▸ hy)

theorem handOver_eq (hr : Receives n c) (hf : First n c src l₁ x l₂) (cp : ℤ) :
    ∃ m, n.handOver c x cp = m ∧ m.conf = n.conf ∧ m.sproxy = n.sproxy ∧
      m.proc c = { n.proc c with
        list := l₁ ++ l₂, ubuf := if cp = 0 then n.queuedMessage x else (n.proc c).ubuf } ∧
      ∀ q, q ≠ c → m.proc q = n.proc q := by
  have hc : (n.unlink x).proc c = { n.proc c with list := l₁ ++ l₂ } := by
    rw [← filter_eq hr hf]
    rfl
  have hq : ∀ q, q ≠ c → (n.unlink x).proc q = n.proc q := by
    intro q hq
    change { n.proc q with list := (n.proc q).list.filter (· ≠ x) } = _
    rw [unlink_list_of_not_mem ((hr.alone x hf.mem).1 q hq)]
  have hsp : (n.unlink x).sproxy = n.sproxy := by
    funext px
    change { n.sproxy px with list := (n.sproxy px).list.filter (· ≠ x) } = _
    rw [unlink_list_of_not_mem ((hr.alone x hf.mem).2 px)]
  refine ⟨_, rfl, ?_⟩
  unfold handOver
  split_ifs
  · refine ⟨rfl, hsp, ?_, fun q hqc => ?_⟩
    · rw [modProc_same, hc]
    · rw [modProc_of_ne _ _ hqc, hq q hqc]
  · exact ⟨rfl, hsp, hc, hq⟩

section

variable (hr : Receives n c) (hf : First n c src l₁ x l₂)

include hr hf

theorem serves_silent (ha : ¬ n.AckDue x) :
    Serves n c cp l₁ x l₂ ((n.handOver c x cp).modProc x fun p => p.endSend.upIfReady cp) := by
  have hcx : x ≠ c := fun h => hr.self (h ▸ hf.mem)
  obtain ⟨m, hm, -, hsp, hc, hq⟩ := handOver_eq hr hf cp
  have hself : (m.modProc x fun p => p.endSend.upIfReady cp).proc x =
      (n.proc x).endSend.upIfReady cp := by rw [modProc_same, hq x hcx]
  rw [hm]
  refine ⟨?_, ?_, ?_, ?_, ?_, ?_, fun h => absurd h ha, fun _ => hsp, ?_⟩
  · rw [modProc_of_ne _ _ hcx.symm, hc]
  · rw [hself, Proc.upIfReady_rts, decide_eq_false ha, Bool.or_false]
    rfl
  · rw [hself]
    unfold Proc.upIfReady
    split <;> rfl
  · rw [hself]
    unfold Proc.upIfReady
    split <;> rfl
  · intro hs
    rw [hself, Proc.upIfReady, if_pos (by simp [Proc.endSend, hs, Rts.running])]
    exact ⟨rfl, rfl⟩
  · intro hw
    rw [hself, Proc.upIfReady, if_neg]
    · exact ⟨rfl, rfl⟩
    · intro h
      have := congrArg Rts.receiving h
      simp [Proc.endSend, hw, Rts.running] at this
  · intro q hqc hqx
    rw [modProc_of_ne _ _ hqx, hq q hqc]

theorem serves_acked (ha : n.AckDue x)
    (hpx : (n.sproxy (n.conf.nProxies (n.proc x).nodeid)).rts ≠ Rts.onlyFree) :
    Serves n c cp l₁ x l₂ (((n.handOver c x cp).genericAckLcl2rmt .sendAck x c cp).1.modProc x
      fun p => p.endSend.upIfReady cp) := by
  have hcx : x ≠ c := fun h => hr.self (h ▸ hf.mem)
  obtain ⟨m, hm, hconf, hsp, hc, hq⟩ := handOver_eq hr hf cp
  have hx := hq x hcx
  rw [← hsp] at hpx
  have hack : (m.genericAckLcl2rmt .sendAck x c cp).1.proc x =
      { n.proc x with
        rts := { (n.proc x).rts with rmtoper := true }
        proxy := n.conf.nProxies (n.proc x).nodeid
        rmtcmd := { (n.proc x).rmtcmd with
          cmd := .sendAck, dcid := n.conf.dcid, src := (m.proc c).endpoint
          dst := (n.proc x).endpoint, snode := n.conf.localNodeid, dnode := (n.proc x).nodeid
          len := 0, rcode := cp } } := by
    simp [genericAckLcl2rmt, sproxyEnqueue, hconf, hx, hpx]
  have hlist : ∀ px, ((m.genericAckLcl2rmt .sendAck x c cp).1.sproxy px).list =
      if px = n.conf.nProxies (n.proc x).nodeid then (n.sproxy px).list ++ [x]
      else (n.sproxy px).list := by
    intro px
    rw [genericAckLcl2rmt, sproxyEnqueue_list (by simpa [hconf, hx] using hpx)]
    simp [hconf, hx, hsp]
  have hother : ∀ q, q ≠ x → (m.genericAckLcl2rmt .sendAck x c cp).1.proc q = m.proc q :=
    fun q hqx => genericAckLcl2rmt_proc_of_ne _ hqx ..
  rw [hm]
  generalize (m.genericAckLcl2rmt .sendAck x c cp).1 = u at hack hlist hother ⊢
  have hself : (u.modProc x fun p => p.endSend.upIfReady cp).proc x = (u.proc x).endSend := by
    -- a remote descriptor is never runnable
    rw [modProc_same]
    refine if_neg fun h => ?_
    have := congrArg Rts.remote h
    simp [Proc.endSend, hack, ha.1, Rts.running] at this
  rw [hack] at hself
  refine ⟨?_, ?_, ?_, ?_, ?_, ?_, fun _ => ⟨?_, ?_, ?_, hlist⟩, fun h => absurd ha h, ?_⟩
  · rw [modProc_of_ne _ _ hcx.symm, hother c hcx.symm, hc]
  · rw [hself, decide_eq_true ha, Bool.or_true]
    rfl
  · rw [hself]
    rfl
  · rw [hself]
    rfl
  · intro hs
    have := ha.1
    rw [hs] at this
    exact absurd this (by decide)
  · intro hw
    rw [ha.2] at hw
    exact absurd hw Bool.false_ne_true
  all_goals try rw [hself]; rfl
  intro q hqc hqx
  rw [modProc_of_ne _ _ hqx, hother q hqx, hq q hqc]

theorem not_serves_unacked (ha : n.AckDue x)
    (hpx : (n.sproxy (n.conf.nProxies (n.proc x).nodeid)).rts = Rts.onlyFree) :
    ¬ Serves n c cp l₁ x l₂ (((n.handOver c x cp).genericAckLcl2rmt .sendAck x c cp).1.modProc x
      fun p => p.endSend.upIfReady cp) := by
  obtain ⟨m, hm, hconf, hsp, -, hq⟩ := handOver_eq hr hf cp
  have hx := hq x fun h => hr.self (h ▸ hf.mem)
  intro hs
  have hl := (hs.acked ha).2.2.2 (n.conf.nProxies (n.proc x).nodeid)
  rw [hm, genericAckLcl2rmt, sproxyEnqueue_of_free _ _ (by simpa [hconf, hx, hsp] using hpx)] at hl
  simp [hsp] at hl

end

end Serve

/-! ### The call -/

section Call

variable {n : Node} {c src : ℤ}

theorem blocks_of_none (n : Node) (c src timeout cp : ℤ) :
    Blocks n c src timeout ((n.blockReceiving c src).sleepOr c timeout
      (.sleep (.receive src) .message) fun n code => n.receiveEnd c code cp) := by
  have hlist : ∀ p : Proc, p.wakeMigr.list = p.list := fun p => by
    unfold Proc.wakeMigr
    split <;> rfl
  unfold Blocks sleepOr
  by_cases ht : timeout = timeoutNowait
  · have hgive : ∀ m : Node, m.receiveEnd c EMol.again cp =
        ((m.modProc c Proc.endReceive).modProc c fun p =>
          { p with misc := { p.misc with notify := false } }, .ret EMol.again) := fun m =>
      if_pos (by decide)
    rw [if_pos ht, if_pos ht]
    dsimp only
    rw [hgive]
    refine ⟨?_, rfl⟩
    simp only [modProc_same, blockReceiving]
    exact hlist _
  · rw [if_neg ht, if_neg ht]
    refine ⟨?_, rfl, ?_, ?_, rfl, fun q hq => ?_⟩
    · simp only [modProc_same, blockReceiving]
      rfl
    · simp only [modProc_same, blockReceiving]
      rfl
    · simp only [modProc_same, blockReceiving]
      rfl
    · simp only [blockReceiving, modProc_of_ne _ _ hq]

theorem not_servesQueue_of_refused {timeout cp code : ℤ}
    (h : n.miniReceive c src timeout cp = (n, .ret code)) (hcode : code ≠ EMol.again) :
    ¬ ServesQueue n c src timeout cp := by
  unfold ServesQueue
  rw [h]
  rintro (⟨l₁, x, l₂, hf, -, hs⟩ | ⟨-, -, hb⟩)
  · have hl := congrArg List.length (congrArg Proc.list hs.receiver)
    rw [hf.queue] at hl
    simp at hl
  · split at hb
    · exact hcode (Next.ret.inj hb)
    · exact absurd hb.1 (by simp)

end Call

def queuedSender (x : ℤ) : Node where
  conf := Conf.sample 0
  proc := fun q =>
    if q = 5 then { Proc.sample 0 5 {} with list := [x] }
    else if q = x then { Proc.sample 0 x { sending := true } with sendto := 5 }
    else {}
  sproxy := fun _ => {}
  rproxy := fun _ => {}

theorem queuedSender_receives {x : ℤ} (hx : x ≠ 5) : Receives (queuedSender x) 5 := by
  have hlist : ((queuedSender x).proc 5).list = [x] := rfl
  have hself : (queuedSender x).proc x =
      { Proc.sample 0 x { sending := true } with sendto := 5 } := by simp [queuedSender, hx]
  refine ⟨rfl, rfl, rfl, fun _ _ => rfl, ?_, ?_, ?_, ?_, ?_⟩
  · rw [hlist]
    simp
  · rw [hlist]
    simpa using hx.symm
  · rw [hlist]
    simp [hself, Proc.sample]
  · rw [hlist]
    simp only [List.mem_singleton, forall_eq, hself]
    exact ⟨rfl, rfl⟩
  · rw [hlist]
    simp only [List.mem_singleton, forall_eq]
    refine ⟨fun q hq hmem => ?_, fun _ => List.not_mem_nil⟩
    simp only [queuedSender, hq, if_false] at hmem
    split at hmem <;> exact List.not_mem_nil hmem

end Node

end MolIpc
