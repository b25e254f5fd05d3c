import MolIpc.Ipc.QueueService
import MolIpc.Net.ReplyPaths

/-!
Acknowledges between two nodes: when one is queued for a remote sender, and when one that comes in
wakes up the process that waits for it.

Whether the message of a remote process is acknowledged when a local receive takes it from the
queue is read off the bit `RECEIVING` of the descriptor kept of the sender, which a finished sendrec
may have left there. And `mm_put2lcl` refuses an acknowledge, like any command, while the
descriptor kept of its source has an operation in progress.
-/

namespace MolIpc

namespace Node

/-! ### Sending acknowledges -/

/-- One acknowledge of a message, and nothing else, has been queued for `x`. -/
structure SendAcked (n n' : Node) (x code : ℤ) : Prop where
  cmd : (n'.proc x).rmtcmd.cmd = .sendAck
  rcode : (n'.proc x).rmtcmd.rcode = code
  dst : (n'.proc x).rmtcmd.dst = (n.proc x).endpoint
  queue : ∀ px, (n'.sproxy px).list =
    if px = n.conf.nProxies (n.proc x).nodeid then (n.sproxy px).list ++ [x]
    else (n.sproxy px).list

def HasProxy (n : Node) (x : ℤ) : Prop :=
  (n.sproxy (n.conf.nProxies (n.proc x).nodeid)).rts ≠ Rts.onlyFree

instance (n : Node) (x : ℤ) : Decidable (n.HasProxy x) := by unfold HasProxy; infer_instance

/-- The message of a `mm_mini_send` of a remote process reaches its destination. -/
structure PlainSend (n : Node) (px : ℤ) (h : Hdr) : Prop where
  cmd : h.cmd = .sendMsg
  admitted : Admitted n px h
  ne : endpointP h.src ≠ endpointP h.dst
  src : SrcReady n h
  dst : DstReady n h
  proxy : n.HasProxy (endpointP h.src)

section Send

variable {n : Node} {px : ℤ} {h : Hdr}

theorem PlainSend.put2lcl (hp : PlainSend n px h) (pay : Mem) :
    n.put2lcl px h pay 0 = some (n.sendRmt2lcl h (endpointP h.src) (endpointP h.dst) 0) := by
  rw [put2lcl_eq_cmd hp.admitted hp.ne hp.src hp.dst]
  simp [put2lclCmd, hp.cmd]

theorem PlainSend.acked (hp : PlainSend n px h)
    (hw : (n.proc (endpointP h.dst)).waitsFor (n.proc (endpointP h.src)).endpoint) :
    SendAcked n (n.sendRmt2lcl h (endpointP h.src) (endpointP h.dst) 0).1 (endpointP h.src)
      EMol.ok := by
  have hne := hp.ne
  have hcmd : ¬ h.cmd = .sndrecMsg := by simp [hp.cmd]
  have hpx := hp.proxy
  unfold HasProxy at hpx
  unfold sendRmt2lcl
  rw [if_pos hw, if_neg (not_not_intro rfl)]
  dsimp only
  rw [if_neg hcmd]
  constructor
  · simp [genericAckLcl2rmt, sproxyEnqueue, hne, hpx]
  · simp [genericAckLcl2rmt, sproxyEnqueue, hne, hpx]
  · simp [genericAckLcl2rmt, sproxyEnqueue, hne, hpx]
  · intro q
    rw [modProc_sproxy, genericAckLcl2rmt, sproxyEnqueue_list]
    · simp [hne]
    · simpa [hne] using hpx

theorem PlainSend.queued (hp : PlainSend n px h)
    (hw : ¬ (n.proc (endpointP h.dst)).waitsFor (n.proc (endpointP h.src)).endpoint) :
    ((n.sendRmt2lcl h (endpointP h.src) (endpointP h.dst) 0).1.proc (endpointP h.src)).rts =
      { (n.proc (endpointP h.src)).rts with sending := true } := by
  unfold sendRmt2lcl
  rw [if_neg hw]
  simp [addTail, hp.ne, hp.cmd]

end Send

theorem sendAcked_iff {n : Node} {c src x : ℤ} {l₁ l₂ : List ℤ} (hr : Receives n c)
    (hv : Names n c src) (hs : n.SourceRange src) (hf : First n c src l₁ x l₂)
    (hx : (n.proc x).rts.remote = true) (hpx : n.HasProxy x) (timeout : ℤ) :
    SendAcked n (n.miniReceive c src timeout 0).1 x EMol.ok ↔
      (n.proc x).rts.receiving = false := by
  have hfirst : n.firstSender c src = some x := by
    cases hfs : n.firstSender c src with
    | none => exact absurd hf.accepted (firstSender_eq_none hfs x hf.mem)
    | some y =>
      obtain ⟨l₁', l₂', hf'⟩ := firstSender_eq_some hfs
      rw [(hf.unique hf').2.1]
  have hcall : n.miniReceive c src timeout 0 = n.receiveFrom c x 0 := by
    rw [miniReceive_of_ready hr hv hs, hfirst]
  rw [hcall, receiveFrom_eq hr hf.mem]
  constructor
  · intro ha
    by_contra hno
    have hdue : ¬ n.AckDue x := fun h => hno h.2
    rw [if_neg hdue] at ha
    have hl := ha.queue (n.conf.nProxies (n.proc x).nodeid)
    rw [(serves_silent hr hf hdue).silent hdue, if_pos rfl] at hl
    simpa using congrArg List.length hl
  · intro hno
    have hdue : n.AckDue x := ⟨hx, hno⟩
    rw [if_pos hdue]
    have hserved : Serves n c 0 l₁ x l₂ _ := serves_acked hr hf hdue hpx
    obtain ⟨h1, h2, h3, h4⟩ := hserved.acked hdue
    exact ⟨h1, h2, h3, h4⟩

/-! ### Waiting for acknowledges -/

def Awaits (n : Node) (h : Hdr) : Prop :=
  let l := n.proc (endpointP h.dst)
  match h.cmd with
  | .sendAck => l.rts = { sending := true } ∧ l.sendto = h.src
  | .copyinAck | .copylclAck | .copyrmtAck => l.rts = Rts.onlyOncopy
  | .copyoutData =>
    l.rts = Rts.onlyOncopy ∧ bytesOk h (n.conf.maxbytes h.snode) ∧
      ((n.proc (endpointP h.vcopy.dst)).endpoint = l.endpoint ∨
        endpointP h.vcopy.dst ≠ endpointP h.src ∧ endpointP h.vcopy.dst ≠ endpointP h.dst)
  | _ => False

/-- The descriptor kept of the source has `BIT_ONCOPY` if this is the answer to a chunk of a copy,
and so does the process that the data is for. -/
def Marked (n : Node) (h : Hdr) : Prop :=
  match h.cmd with
  | .copyinAck | .copylclAck | .copyrmtAck => (n.proc (endpointP h.src)).rts.oncopy = true
  | .copyoutData =>
    (n.proc (endpointP h.src)).rts.oncopy = true ∧ (n.proc (endpointP h.vcopy.dst)).rts.oncopy = true
  | _ => True

/-- A process sleeps and waits for the acknowledge, and the node knows the remote process that it
comes from. -/
structure AckDueTo (n : Node) (px : ℤ) (h : Hdr) : Prop where
  admitted : Admitted n px h
  ne : endpointP h.src ≠ endpointP h.dst
  remote : (n.proc (endpointP h.src)).rts.remote = true
  bound : (n.proc (endpointP h.src)).rts.slotFree = false
  endpoint : (n.proc (endpointP h.src)).endpoint = h.src
  node : (n.proc (endpointP h.src)).nodeid = h.snode
  dst : DstReady n h
  awaits : n.Awaits h

/-- The command wakes up its destination with the code that it carries. -/
def WakesUp (n : Node) (px : ℤ) (h : Hdr) (pay : Mem) (cp : ℤ) : Prop :=
  ∃ r, n.put2lcl px h pay cp = some r ∧ (r.1.proc (endpointP h.dst)).rcode = h.rcode ∧
    (r.1.proc (endpointP h.dst)).pseudosem = (n.proc (endpointP h.dst)).pseudosem + 1

section Wait

variable {n : Node} {px : ℤ} {h : Hdr}

section

variable (ha : AckDueTo n px h)

include ha

theorem AckDueTo.src (ho : (n.proc (endpointP h.src)).Unused) : SrcReady n h :=
  ⟨ha.remote, ha.bound, ha.endpoint, ha.node, ho.1, ho.2⟩

theorem AckDueTo.dropped (ho : ¬ (n.proc (endpointP h.src)).Unused) (pay : Mem) (cp : ℤ) :
    n.put2lcl px h pay cp = some (n, EMol.enqueued) :=
  put2lcl_busy ha.remote ha.bound ha.endpoint ha.node ho ha.admitted ha.ne

theorem AckDueTo.copyoutData (hc : h.cmd = .copyoutData) (pay : Mem) (cp : ℤ) :
    (n.Marked h → n.copyoutDataRmt2lcl h pay (endpointP h.src) (endpointP h.dst) cp =
      some ((if h.rcode = EMol.ok ∧ cp = 0 then
          n.modProc (endpointP h.vcopy.dst) fun p =>
            { p with mem := p.mem.blit h.vcopy.daddr pay 0 h.vcopy.bytes.toNat }
        else n).modProc (endpointP h.dst) fun p => if p.rts = Rts.onlyOncopy then p.up h.rcode else p,
        if h.rcode = EMol.ok then cp else EMol.ok)) ∧
    (¬ n.Marked h →
      ∃ e, n.copyoutDataRmt2lcl h pay (endpointP h.src) (endpointP h.dst) cp = some (n, e)) := by
  have hw := ha.awaits
  unfold Awaits at hw
  rw [hc] at hw
  obtain ⟨hl, hb, hlock⟩ := hw
  have hself : ¬ ((n.proc (endpointP h.vcopy.dst)).endpoint ≠ (n.proc (endpointP h.dst)).endpoint ∧
      (endpointP h.vcopy.dst = endpointP h.dst ∨ endpointP h.vcopy.dst = endpointP h.src)) := by
    rintro ⟨he, hx⟩
    rcases hlock with h' | ⟨h1, h2⟩
    · exact he h'
    · exact hx.elim h2 h1
  generalize hchk : (if (n.proc (endpointP h.dst)).rts = Rts.running then EMol.procrun
      else if (n.proc (endpointP h.vcopy.dst)).rts = Rts.running then EMol.procrun
      else if ¬ (n.proc (endpointP h.dst)).rts.oncopy = true then EMol.procsts
      else if ¬ (n.proc (endpointP h.vcopy.dst)).rts.oncopy = true then EMol.procsts
      else if ¬ (n.proc (endpointP h.src)).rts.oncopy = true then EMol.procsts
      else EMol.ok) = e
  unfold copyoutDataRmt2lcl Marked
  rw [if_neg (not_not_intro hb), if_neg hself, hchk, hc]
  constructor
  · rintro ⟨hon, hd⟩
    have hdrun : (n.proc (endpointP h.vcopy.dst)).rts ≠ Rts.running := fun hrun => by
      rw [hrun] at hd
      exact absurd hd (by decide)
    have he : e = EMol.ok := by simp [← hchk, hl, hd, hon, hdrun]
    rw [he, if_neg (not_not_intro rfl)]
  · intro hm
    have he : e ≠ EMol.ok := by
      rw [← hchk]
      split_ifs with _ _ _ hd hs
      all_goals first | decide | exact absurd ⟨hs, hd⟩ hm
    exact ⟨e, if_pos he⟩

theorem AckDueTo.delivered (ho : (n.proc (endpointP h.src)).Unused) (hm : n.Marked h) (pay : Mem)
    (cp : ℤ) : WakesUp n px h pay cp := by
  have hw := ha.awaits
  unfold WakesUp
  rw [put2lcl_eq_cmd ha.admitted ha.ne (ha.src ho) ha.dst]
  -- the process whose only flag is `ONCOPY` is woken up
  have hup : ∀ p : Proc, p.rts = Rts.onlyOncopy →
      (if p.rts = Rts.onlyOncopy then p.up h.rcode else p).rcode = h.rcode ∧
        (if p.rts = Rts.onlyOncopy then p.up h.rcode else p).pseudosem = p.pseudosem + 1 := by
    intro p hp
    rw [if_pos hp]
    exact ⟨rfl, rfl⟩
  have hgeneric : (n.proc (endpointP h.dst)).rts = Rts.onlyOncopy →
      (n.proc (endpointP h.src)).rts.oncopy = true →
      (n.genericAckRmt2lcl (endpointP h.src) (endpointP h.dst) h.rcode).1.proc (endpointP h.dst) =
        (n.proc (endpointP h.dst)).up h.rcode := by
    intro hl hon
    simp [genericAckRmt2lcl, ha.remote, hl, hon]
  have hm' := hm
  unfold Awaits at hw
  unfold Marked at hm
  unfold put2lclCmd
  cases hc : h.cmd <;> rw [hc] at hw hm <;> dsimp only at hw hm ⊢ <;> try exact hw.elim
  case sendAck =>
    have hr : (n.proc (endpointP h.dst)).endSend.rts = Rts.running := by
      simp [Proc.endSend, hw.1, Rts.running]
    have hack : n.sendAckRmt2lcl (endpointP h.src) (endpointP h.dst) h.rcode =
        (n.modProc (endpointP h.dst) fun p => p.endSend.upIfReady h.rcode, EMol.ok) := by
      simp [sendAckRmt2lcl, ho.2, hw.1, hw.2, ha.endpoint]
    refine ⟨_, rfl, ?_⟩
    rw [hack, modProc_same, Proc.upIfReady, if_pos hr]
    exact ⟨rfl, rfl⟩
  case copyoutData =>
    rw [(ha.copyoutData hc pay cp).1 hm']
    refine ⟨_, rfl, ?_⟩
    have hl := hw.1
    rw [modProc_same]
    -- the data may go to the process itself, whose flags and semaphore stay as they are
    generalize hu : (if h.rcode = EMol.ok ∧ cp = 0 then _ else _ : Node) = u
    have hrts : (u.proc (endpointP h.dst)).rts = Rts.onlyOncopy ∧
        (u.proc (endpointP h.dst)).pseudosem = (n.proc (endpointP h.dst)).pseudosem := by
      rw [← hu]
      split
      · constructor
        · refine (modProc_field _ _ Proc.rts ?_).trans hl
          exact fun _ => rfl
        · refine modProc_field _ _ Proc.pseudosem ?_
          exact fun _ => rfl
      · exact ⟨hl, rfl⟩
    rw [← hrts.2]
    exact hup _ hrts.1
  all_goals
    refine ⟨_, rfl, ?_⟩
    rw [hgeneric hw hm]
    exact ⟨rfl, rfl⟩

theorem AckDueTo.unmarked (ho : (n.proc (endpointP h.src)).Unused) (hm : ¬ n.Marked h) (pay : Mem)
    (cp : ℤ) : ∃ e, n.put2lcl px h pay cp = some (n, e) := by
  rw [put2lcl_eq_cmd ha.admitted ha.ne (ha.src ho) ha.dst]
  have hm' := hm
  unfold Marked at hm
  unfold put2lclCmd
  cases hc : h.cmd <;> rw [hc] at hm <;> dsimp only at hm ⊢ <;> try exact absurd trivial hm
  case copyoutData => exact (ha.copyoutData hc pay cp).2 hm'
  all_goals
    unfold genericAckRmt2lcl
    split_ifs
    all_goals exact ⟨_, rfl⟩

theorem AckDueTo.wakesUp_iff (pay : Mem) (cp : ℤ) :
    WakesUp n px h pay cp ↔ (n.proc (endpointP h.src)).Unused ∧ n.Marked h := by
  refine ⟨fun hw => ?_, fun ho => ha.delivered ho.1 ho.2 pay cp⟩
  by_contra hno
  have hsame : ∃ e, n.put2lcl px h pay cp = some (n, e) := by
    by_cases ho : (n.proc (endpointP h.src)).Unused
    · exact ha.unmarked ho (fun hm => hno ⟨ho, hm⟩) pay cp
    · exact ⟨_, ha.dropped ho pay cp⟩
  obtain ⟨e, he⟩ := hsame
  obtain ⟨r, hr, -, hsem⟩ := hw
  rw [he] at hr
  rw [← Option.some.inj hr] at hsem
  exact absurd hsem (by dsimp only; omega)

end

end Wait

/-- **Acknowledges.** The message of a remote `mm_mini_send` is acknowledged once if its destination
waits; if a later receive takes it, iff the descriptor kept of the sender did not say that it is in
a sendrec. An acknowledge wakes up who waits for it iff the descriptor of its source has no
operation in progress and, for a copy, is still marked. -/
theorem acknowledges_iff (n : Node) (px : ℤ) (h : Hdr) (pay : Mem) :
    (PlainSend n px h →
      ∃ n₁, n.put2lcl px h pay 0 = some (n₁, EMol.ok) ∧
        ((n.proc (endpointP h.dst)).waitsFor (n.proc (endpointP h.src)).endpoint →
          SendAcked n n₁ (endpointP h.src) EMol.ok) ∧
        (¬ (n.proc (endpointP h.dst)).waitsFor (n.proc (endpointP h.src)).endpoint →
          ∀ (n₂ : Node) (src timeout : ℤ) (l₁ l₂ : List ℤ),
            n₂.proc (endpointP h.src) = n₁.proc (endpointP h.src) →
            Receives n₂ (endpointP h.dst) → Names n₂ (endpointP h.dst) src → n₂.SourceRange src →
            First n₂ (endpointP h.dst) src l₁ (endpointP h.src) l₂ →
            n₂.HasProxy (endpointP h.src) →
            (SendAcked n₂ (n₂.miniReceive (endpointP h.dst) src timeout 0).1 (endpointP h.src)
                EMol.ok ↔
              (n.proc (endpointP h.src)).rts.receiving = false))) ∧
    ∀ cp : ℤ, AckDueTo n px h →
      (WakesUp n px h pay cp ↔ (n.proc (endpointP h.src)).Unused ∧ n.Marked h) := by
  refine ⟨fun hp => ?_, fun cp ha => ha.wakesUp_iff pay cp⟩
  have hok : (n.sendRmt2lcl h (endpointP h.src) (endpointP h.dst) 0).2 = EMol.ok := by
    unfold sendRmt2lcl
    split
    · rw [if_neg (not_not_intro rfl)]
    · rfl
  refine ⟨(n.sendRmt2lcl h (endpointP h.src) (endpointP h.dst) 0).1, ?_, hp.acked, ?_⟩
  · rw [hp.put2lcl pay, ← hok]
  · intro hw n₂ src timeout l₁ l₂ hsame hr hv hs hf hpx
    have hrts := hp.queued hw
    rw [← hsame] at hrts
    have hremote : (n₂.proc (endpointP h.src)).rts.remote = true := by
      rw [hrts]
      exact hp.src.remote
    rw [sendAcked_iff hr hv hs hf hremote hpx timeout, hrts]

/-! ### Missing acknowledges -/

def ackSample : Node where
  conf := Conf.sample 0
  proc := fun q =>
    if q = 5 ∨ q = 7 then Proc.sample 0 q {}
    else if q = 6 then Proc.sample 1 6 { remote := true }
    else {}
  sproxy := Proc.sampleProxy
  rproxy := Proc.sampleProxy

def ackSampleHdr (cmd : Cmd) (dst : ℤ) : Hdr :=
  { cmd := cmd, src := 6, dst := dst, snode := 1, dnode := 0, msg := { source := 6 } }

def ackCrossing (crossing : Bool) : Option Node :=
  (ackSample.call 5 (.send 6) {} timeoutForever 0).bind fun r =>
    (r.1.nextSent 1).bind fun r =>
      if crossing then (r.1.put2lcl 1 (ackSampleHdr .sendMsg 7) (fun _ => 0) 0).map (·.1)
      else some r.1

theorem ackCrossing_due (crossing : Bool) :
    ∃ n, ackCrossing crossing = some n ∧ AckDueTo n 1 (ackSampleHdr .sendAck 5) ∧
      (n.proc 6).rts = { remote := true, sending := crossing } := by
  cases crossing <;>
  · refine ⟨_, rfl, ⟨?_, ?_, ?_, ?_, ?_, ?_, ?_, ?_⟩, rfl⟩
    · exact ⟨rfl, rfl, rfl, by decide, rfl, by decide, by decide, rfl, rfl⟩
    · decide
    all_goals first | rfl | exact ⟨rfl, rfl, rfl, rfl, rfl⟩ | exact ⟨rfl, rfl⟩

/-- Without the other message, 5 is woken up. -/
theorem ack_delivered :
    ∃ n, ackCrossing false = some n ∧
      WakesUp n 1 (ackSampleHdr .sendAck 5) (fun _ => 0) 0 := by
  obtain ⟨n, hn, hdue, hrts⟩ := ackCrossing_due false
  refine ⟨n, hn, ((acknowledges_iff n 1 _ _).2 0 hdue).2 ?_⟩
  change (n.proc 6).Unused ∧ True
  unfold Proc.Unused
  rw [hrts]
  exact ⟨⟨rfl, rfl⟩, trivial⟩

/-- The process 5 takes a request of 6, whose sendrec ends without an answer: the commands for node
1 when 5 takes the next message of 6, and its source and data. -/
def ackAfterSendrec : Option (List ℤ × ℤ × ℕ) :=
  (ackSample.put2lcl 1 (ackSampleHdr .sndrecMsg 5) (fun _ => 0) 0).bind fun r =>
    ((r.1.miniReceive 5 anyEp timeoutForever 0).1.put2lcl 1
      { ackSampleHdr .sendMsg 5 with msg := { source := 6, data := 1 } } (fun _ => 0) 0).map fun r =>
        let n := (r.1.miniReceive 5 anyEp timeoutForever 0).1
        ((n.sproxy 1).list, (n.proc 5).ubuf.source, (n.proc 5).ubuf.data)

/-- No acknowledge is queued for the message that 6 has sent after its sendrec; and the acknowledge
for 5 does not wake it up, because 6 is in the queue of 7. -/
theorem ack_missing_and_dropped :
    ackAfterSendrec = some ([], 6, 1) ∧
      ∃ n, ackCrossing true = some n ∧ AckDueTo n 1 (ackSampleHdr .sendAck 5) ∧
        n.put2lcl 1 (ackSampleHdr .sendAck 5) (fun _ => 0) 0 = some (n, EMol.enqueued) ∧
        ¬ WakesUp n 1 (ackSampleHdr .sendAck 5) (fun _ => 0) 0 := by
  refine ⟨by decide, ?_⟩
  obtain ⟨n, hn, hdue, hrts⟩ := ackCrossing_due true
  have hdrop : n.put2lcl 1 (ackSampleHdr .sendAck 5) (fun _ => 0) 0 = some (n, EMol.enqueued) := by
    refine hdue.dropped ?_ _ _
    change ¬ (n.proc 6).Unused
    unfold Proc.Unused
    rw [hrts]
    exact fun h => absurd h.2 (by decide)
  refine ⟨n, hn, hdue, hdrop, ?_⟩
  rintro ⟨r, hr, -, hsem⟩
  rw [hdrop] at hr
  rw [← Option.some.inj hr] at hsem
  exact absurd hsem (by dsimp only; omega)

end Node

end MolIpc
