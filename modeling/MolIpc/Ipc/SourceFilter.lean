import MolIpc.Ipc.Disturb
import MolIpc.Ipc.QueueService
import MolIpc.Lib.Reach

/-!
The source that a receive or a sendrec names.

A receive from `src` and the second half of a sendrec to `ep` are to end with a message or a
notification of that process only, and leave those of the others where they are. The receive
delivers the first pending notification, whoever it is from. What comes while the call blocks passes
the test of `p_getfrom`; the message in the user's buffer is that of the source as long as nothing
else ends the wait: a copy that failed, the mark of a notification that nobody waited for, or, in a
sendrec, a notification, which is never copied.
-/

namespace MolIpc

open Reach Relation

/-! ### The filter of a sleeper -/

/-- The message that a call finds when it wakes up; `b` says that it looks at notices. -/
def Proc.got (b : Bool) (p : Proc) : Message := if b && p.misc.notify then p.message else p.ubuf

def Proc.unserved (p : Proc) : Prop := p.pseudosem < 0 ∨ p.rcode < 0

/-- A process whose call waits for a message of `ep`, has got one, or has been stopped. -/
structure Proc.Filters (b : Bool) (ep : ℤ) (p : Proc) : Prop where
  waits : p.rts.receiving = true →
    p.getfrom = ep ∧ (b = true → p.misc.notify = false) ∧ p.unserved
  rest : p.rts.receiving = false →
    (p.got b).source = ep ∨ p.rts.sending = false ∧ p.unserved

def Proc.served (b : Bool) (ep : ℤ) (p : Proc) : Prop :=
  p.rts.receiving = true ∨ (p.got b).source = ep

/-- No message that failed to come, no lost command, no mark without a notice, no notice that the
call does not look at, and no wake-up of a stopped process. -/
def Kind.spares (b : Bool) (ep : ℤ) (p : Proc) : Kind → Prop
  | .failed | .lost => False
  | .mark => b = false
  | .notice => b = true
  | .ready => p.served b ep
  | _ => True

section Filters

variable {b : Bool} {ep : ℤ} {k : Kind} {K : Set Kind} {p p' : Proc}

theorem Proc.got_congr (h : p'.core = p.core) : p'.got b = p.got b := by
  have h1 : p'.misc.notify = p.misc.notify := congrArg Core.notify h
  have h2 : p'.message = p.message := congrArg Core.message h
  have h3 : p'.ubuf = p.ubuf := congrArg Core.ubuf h
  unfold got
  rw [h1, h2, h3]

theorem Proc.Filters.of_waits (hr : p.rts.receiving = true) (hg : p.getfrom = ep)
    (hn : b = true → p.misc.notify = false) (hu : p.unserved) : p.Filters b ep :=
  ⟨fun _ => ⟨hg, hn, hu⟩, fun h => absurd (h.symm.trans hr) Bool.false_ne_true⟩

theorem Proc.Filters.of_got (hr : p.rts.receiving = false) (hg : (p.got b).source = ep) :
    p.Filters b ep :=
  ⟨fun h => absurd (hr.symm.trans h) Bool.false_ne_true, fun _ => .inl hg⟩

theorem Proc.Filters.of_stopped (hr : p.rts.receiving = false) (hs : p.rts.sending = false)
    (hu : p.unserved) : p.Filters b ep :=
  ⟨fun h => absurd (hr.symm.trans h) Bool.false_ne_true, fun _ => .inr ⟨hs, hu⟩⟩

/-- Neither the bit `SENDING` nor, for a call that does not look at it, the mark of a notice
matters. -/
theorem Proc.Filters.of_core (b₁ b₂ : Bool) (h : p.Filters b ep)
    (hc : p'.core = { p.core with sending := b₁, notify := b₂ })
    (h₁ : b₁ = true → p.rts.sending = true) (h₂ : b = true → b₂ = p.misc.notify) :
    p'.Filters b ep ∧ (p.served b ep → p'.served b ep) := by
  have hr : p'.rts.receiving = p.rts.receiving := congrArg Core.receiving hc
  have hs : p'.rts.sending = b₁ := congrArg Core.sending hc
  have hn : p'.misc.notify = b₂ := congrArg Core.notify hc
  have hg : p'.getfrom = p.getfrom := congrArg Core.getfrom hc
  have hu : p'.unserved ↔ p.unserved := by
    have h1 : p'.rcode = p.rcode := congrArg Core.rcode hc
    have h2 : p'.pseudosem = p.pseudosem := congrArg Core.pseudosem hc
    unfold unserved
    rw [h1, h2]
  have hgot : p'.got b = p.got b := by
    have h1 : p'.message = p.message := congrArg Core.message hc
    have h2 : p'.ubuf = p.ubuf := congrArg Core.ubuf hc
    unfold got
    rw [h1, h2, hn]
    cases b with
    | false => rfl
    | true => rw [h₂ rfl]
  refine ⟨⟨fun hr' => ?_, fun hr' => ?_⟩, ?_⟩
  · obtain ⟨h1, h2, h3⟩ := h.waits (hr.symm.trans hr')
    exact ⟨hg.trans h1, fun hb => hn.trans ((h₂ hb).trans (h2 hb)), hu.mpr h3⟩
  · rw [hgot, hs]
    refine (h.rest (hr.symm.trans hr')).imp_right fun hstop => ⟨?_, hu.mpr hstop.2⟩
    exact Bool.eq_false_iff.mpr fun hb => Bool.eq_false_iff.mp hstop.1 (h₁ hb)
  · unfold served
    rw [hgot, hr]
    exact id

theorem Proc.Filters.of_upIfReady {q : Proc} (code : ℤ) (hr : q.rts.receiving = false)
    (hg : (q.got b).source = ep) :
    (q.upIfReady code).Filters b ep ∧ (q.upIfReady code).served b ep := by
  have hgot : ((q.upIfReady code).got b).source = ep := by
    unfold upIfReady
    split <;> exact hg
  exact ⟨.of_got (by rw [upIfReady_rts]; exact hr) hgot, .inr hgot⟩

theorem Chg.filters (h : Chg k p p') (hany : ep ≠ anyEp) (hk : k.spares b ep p)
    (hp : p.Filters b ep) :
    p'.Filters b ep ∧ (p.served b ep → k ≠ .out → k ≠ .replay → p'.served b ep) := by
  have hsource : ∀ {src : ℤ}, p.waitsFor src → src = ep := by
    rintro src ⟨hr, -, hg⟩
    rw [(hp.waits hr).1] at hg
    exact (hg.resolve_left hany).symm
  have hdeliver : ∀ {m : Message}, p.waitsFor m.source →
      (p.deliver m).Filters b ep ∧ (p.deliver m).served b ep := by
    intro m hw
    refine Proc.Filters.of_upIfReady _ rfl ?_
    have hn : (b && p.misc.notify) = false := by
      cases b with
      | false => rfl
      | true => exact (hp.waits hw.1).2.1 rfl
    show (if b && p.misc.notify then p.message else m).source = ep
    rw [hn]
    exact hsource hw
  have hkeep : ∀ {P : Prop}, P → p.served b ep → k ≠ .out → k ≠ .replay → P :=
    fun h _ _ _ => h
  cases h with
  | frame _ _ h =>
    obtain ⟨h1, h2⟩ := hp.of_core p.rts.sending p.misc.notify h id fun _ => rfl
    exact ⟨h1, fun hs _ _ => h2 hs⟩
  | unsent _ _ h =>
    obtain ⟨h1, h2⟩ := hp.of_core false p.misc.notify h nofun fun _ => rfl
    exact ⟨h1, fun hs _ _ => h2 hs⟩
  | mark _ _ h =>
    obtain ⟨h1, h2⟩ := hp.of_core p.rts.sending true h id fun hb =>
      absurd (hk.symm.trans hb) Bool.false_ne_true
    exact ⟨h1, fun hs _ _ => h2 hs⟩
  | error _ code hneg =>
    refine ⟨⟨fun hr => ⟨(hp.waits hr).1, (hp.waits hr).2.1, .inr hneg⟩, fun hr => ?_⟩,
      fun hs _ _ => hs⟩
    exact (hp.rest hr).imp_right fun hs => ⟨hs.1, .inr hneg⟩
  | served _ code hs =>
    cases hr : p.rts.receiving with
    | true =>
      have hstay : p.endSend.rts.receiving = true := hr
      rw [Proc.upIfReady_of_receiving hstay]
      obtain ⟨h1, h2, h3⟩ := hp.waits hr
      exact ⟨.of_waits hr h1 h2 h3, fun _ _ _ => .inl hr⟩
    | false =>
      have hgot : (p.got b).source = ep := (hp.rest hr).resolve_right fun h => by
        rw [hs] at h
        cases h.1
      obtain ⟨h1, h2⟩ := Proc.Filters.of_upIfReady (q := p.endSend) code hr hgot
      exact ⟨h1, hkeep h2⟩
  | ready _ code =>
    cases hr : p.rts.receiving with
    | true =>
      rw [Proc.upIfReady_of_receiving hr]
      exact ⟨hp, fun hs _ _ => hs⟩
    | false =>
      have hgot : (p.got b).source = ep := hk.resolve_left (by rw [hr]; exact Bool.false_ne_true)
      obtain ⟨h1, h2⟩ := Proc.Filters.of_upIfReady code hr hgot
      exact ⟨h1, hkeep h2⟩
  | acked _ code ho =>
    have hr : p.rts.receiving = false := by rw [ho]; rfl
    have hgot : (p.got b).source = ep := hk.resolve_left (by rw [hr]; exact Bool.false_ne_true)
    exact ⟨.of_got hr hgot, fun _ _ _ => .inr hgot⟩
  | message _ m hw | request _ m hw | copied _ m hw => exact ⟨(hdeliver hw).1, hkeep (hdeliver hw).2⟩
  | notice _ self src nr hw =>
    subst hk
    have hmsg : (p.buildNotify self src nr).message.source = if self then hardwareNr else src := by
      unfold Proc.buildNotify
      split_ifs <;> rfl
    have hnotice : (p.deliverNotify self src nr).Filters true ep ∧
        (p.deliverNotify self src nr).served true ep := by
      refine Proc.Filters.of_upIfReady _ rfl ?_
      exact hmsg.trans (hsource hw)
    exact ⟨hnotice.1, hkeep hnotice.2⟩
  | failed | lost => exact hk.elim
  | replay =>
    refine ⟨?_, fun _ _ h => absurd rfl h⟩
    by_cases hu : p.unserved
    · refine .of_stopped (by rw [Proc.replay, Proc.upIfReady_rts])
        (by rw [Proc.replay, Proc.upIfReady_rts]) ?_
      unfold Proc.replay Proc.upIfReady
      split
      · exact .inr (show EMol.migrate < 0 by decide)
      · exact hu
    · have hr : p.rts.receiving = false := Bool.eq_false_iff.mpr fun hr => hu (hp.waits hr).2.2
      have hgot : (p.got b).source = ep := (hp.rest hr).resolve_right fun h => hu h.2
      have hstop : (({ p with
          rts := { p.rts with sending := false, receiving := false }
          getfrom := noneEp, sendto := noneEp } : Proc).got b).source = ep := hgot
      exact (Proc.Filters.of_upIfReady _ rfl hstop).1
  | dropped _ code hrem hneg =>
    exact ⟨.of_stopped rfl rfl (.inr hneg), fun _ h _ => absurd rfl h⟩

theorem Chgs.filters (h : Chgs K p p') (hany : ep ≠ anyEp) (hK : ∀ k ∈ K, k.spares b ep p)
    (hsep : .ready ∈ K → .out ∉ K ∧ .replay ∉ K) (hp : p.Filters b ep) : p'.Filters b ep := by
  -- with a wake-up among the changes, the process is never stopped on the way
  have hrun : p'.Filters b ep ∧ (.ready ∈ K → p'.served b ep) := by
    induction h with
    | refl => exact ⟨hp, fun hr => hK _ hr⟩
    | @tail q q' _ hstep ih =>
      obtain ⟨k, hc, hk⟩ := hstep
      have hspares : k.spares b ep q := by
        rcases hk with rfl | hk
        · exact trivial
        · cases k with
          | ready => exact ih.2 hk
          | calm | message | request | notice | copied | failed | mark | replay | out | lost =>
            exact hK _ hk
      obtain ⟨h1, h2⟩ := hc.filters hany hspares ih.1
      refine ⟨h1, fun hr => h2 (ih.2 hr) ?_ ?_⟩
      · rintro rfl
        exact hk.elim nofun (hsep hr).1
      · rintro rfl
        exact hk.elim nofun (hsep hr).2
  exact hrun.1

theorem Chg.buffered (h : Chg k p p') (hr : p.rts.receiving = false) :
    p'.rts.receiving = false ∧ p'.ubuf = p.ubuf := by
  have hup : ∀ {q : Proc} (code : ℤ), q.rts.receiving = false → q.ubuf = p.ubuf →
      (q.upIfReady code).rts.receiving = false ∧ (q.upIfReady code).ubuf = p.ubuf := by
    intro q code h1 h2
    rw [q.upIfReady_rts, q.upIfReady_ubuf]
    exact ⟨h1, h2⟩
  have hno : ∀ {src : ℤ}, ¬ p.waitsFor src := fun hw => Bool.false_ne_true (hr.symm.trans hw.1)
  cases h with
  | frame _ _ h | unsent _ _ h | mark _ _ h =>
    exact ⟨(congrArg Core.receiving h).trans hr, congrArg Core.ubuf h⟩
  | error | acked => exact ⟨hr, rfl⟩
  | served _ code | ready _ code => exact hup code hr rfl
  | message _ _ h | request _ _ h | copied _ _ h | failed _ _ _ h | notice _ _ _ _ h =>
    exact absurd h hno
  | replay => exact hup _ rfl rfl
  | dropped | lost => exact ⟨rfl, rfl⟩

theorem Chgs.buffered (h : Chgs K p p') (hr : p.rts.receiving = false) :
    p'.rts.receiving = false ∧ p'.ubuf = p.ubuf := by
  induction h with
  | refl => exact ⟨hr, rfl⟩
  | tail _ hstep ih =>
    obtain ⟨k, hc, -⟩ := hstep
    obtain ⟨h1, h2⟩ := hc.buffered ih.1
    exact ⟨h1, h2.trans ih.2⟩

theorem Proc.Filters.roused {code : ℤ} (h : p.Filters b ep) (hneg : code < 0) :
    (p.roused code).Filters b ep :=
  ⟨fun hr => ⟨(h.waits hr).1, (h.waits hr).2.1, .inr hneg⟩,
    fun hr => (h.rest hr).imp_right fun hs => ⟨hs.1, .inr hneg⟩⟩

theorem Proc.Filters.got_of_ok {timeout w : ℤ} (h : p.Filters b ep) (hw : p.mayWake timeout w)
    (hok : p.sleepResult timeout w = EMol.ok) :
    p.rts.receiving = false ∧ (p.got b).source = ep := by
  obtain ⟨h1, h2⟩ := Proc.sleepResult_eq_ok hw hok
  have hserved : ¬ p.unserved := fun hu => by
    unfold Proc.unserved at hu
    omega
  have hr : p.rts.receiving = false :=
    Bool.eq_false_iff.mpr fun hr => hserved (h.waits hr).2.2
  exact ⟨hr, (h.rest hr).resolve_right fun hs => hserved hs.2⟩

end Filters

/-! ### What a call leaves where it is -/

def Proc.kept (p : Proc) : Bool × Bool × (ℕ → Bool) := (p.rts.remote, p.rts.slotFree, p.notifyPending)

namespace Node

/-- `c` stays what it is, and its pending notifications and the messages of the others stay in its
queue. -/
structure Keeps (c : ℤ) (n n' : Node) : Prop where
  kept : (n'.proc c).kept = (n.proc c).kept
  queue (x : ℤ) : x ≠ c → x ∈ (n.proc c).list → x ∈ (n'.proc c).list

section Keeps

variable {c i ep timeout cp : ℤ} {n m n' : Node} {f : Proc → Proc} {r : Node × Next}

theorem Keeps.refl (n : Node) : Keeps c n n := ⟨rfl, fun _ _ => id⟩

section

variable (h : Keeps c n m)

include h

theorem Keeps.trans (h' : Keeps c m n') : Keeps c n n' :=
  ⟨h'.kept.trans h.kept, fun x hx => h'.queue x hx ∘ h.queue x hx⟩

theorem Keeps.modProc (i : ℤ) (hf : ∀ p, ((f p).kept, (f p).list) = (p.kept, p.list)) :
    Keeps c n (m.modProc i f) := by
  obtain ⟨hk, hl⟩ := Prod.mk.inj (modProc_field (n := m) i c (fun p => (p.kept, p.list)) hf)
  exact h.trans ⟨hk, fun _ _ hx => hl.symm ▸ hx⟩

theorem Keeps.unlink : Keeps c n (m.unlink c) :=
  h.trans ⟨rfl, fun _ hx hl => List.mem_filter.mpr ⟨hl, decide_eq_true hx⟩⟩

theorem Keeps.addTail (x d : ℤ) : Keeps c n (m.addTail x d) := by
  refine h.trans ⟨modProc_field d c Proc.kept fun _ => rfl, fun y _ hy => ?_⟩
  unfold Node.addTail
  rw [modProc_proc]
  split
  · rename_i hd
    exact List.mem_append_left [x] (hd ▸ hy)
  · exact hy

theorem Keeps.upIfReady (i : ℤ) (g : Proc → Proc) (code : ℤ)
    (hf : ∀ p, ((g p).kept, (g p).list) = (p.kept, p.list)) :
    Keeps c n (m.modProc i fun p => (g p).upIfReady code) := by
  refine h.modProc i fun p => Eq.trans ?_ (hf p)
  unfold Proc.upIfReady
  split <;> rfl

theorem Keeps.wakeMigr : Keeps c n (m.modProc c Proc.wakeMigr) := by
  refine h.modProc c fun p => ?_
  unfold Proc.wakeMigr
  split <;> rfl

theorem Keeps.askRemote (cmd : Cmd) (ep code : ℤ) (msg : Message) :
    Keeps c n (m.askRemote c cmd ep code msg) := by
  refine (h.modProc c (f := fun p => { p with
    rmtcmd := { p.rmtcmd with
      cmd := cmd, dcid := m.conf.dcid, src := p.endpoint, dst := ep
      snode := m.conf.localNodeid, dnode := (m.proc (endpointP ep)).nodeid
      rcode := code, len := 0, msg := msg }
    rts := { p.rts with sending := true, rmtoper := true }
    sendto := ep }) fun _ => rfl).trans ⟨?_, fun _ _ hx => ?_⟩
  · exact sproxyEnqueue_field Proc.kept (fun _ _ => rfl) c
  · exact (sproxyEnqueue_field Proc.list (fun _ _ => rfl) c).symm ▸ hx

theorem Keeps.leaveProxy : Keeps c n (m.leaveProxy c) := by
  unfold Node.leaveProxy
  split
  · exact h.unlink.modProc c fun _ => by rfl
  · exact h.modProc c fun _ => by rfl

theorem Keeps.leaveQueue : Keeps c n (m.leaveQueue c) := by
  unfold Node.leaveQueue
  split
  · exact h.unlink.modProc c fun _ => by rfl
  · exact h.modProc c fun _ => by rfl

end

end Keeps

/-! ### The parts of a sendrec -/

/-- How a part of the sendrec of `c` to `ep` ends: with an error, or asleep behind the filter. -/
inductive Sends (c ep : ℤ) (n : Node) (r : Node × Next) : Prop
  | failed (kept : Keeps c n r.1) (code : ℤ) (next : r.2 = .ret code) (h : code ≠ EMol.ok)
  | migr (kept : Keeps c n r.1) (next : r.2 = .sleep (.sendrec ep) .migr)
  | asleep (kept : Keeps c n r.1) (wait : Wait) (next : r.2 = .sleep (.sendrec ep) wait)
      (h : (r.1.proc c).Filters false ep)

section Sendrec

variable {c ep timeout cp : ℤ} {n m : Node} {r : Node × Next}

theorem Sends.kept (h : Sends c ep n r) : Keeps c n r.1 := by
  cases h with
  | failed kept | migr kept | asleep kept => exact kept

theorem Sends.of_keeps (h : Keeps c n m) (hr : Sends c ep m r) : Sends c ep n r := by
  cases hr with
  | failed kept code next hc => exact .failed (h.trans kept) code next hc
  | migr kept next => exact .migr (h.trans kept) next
  | asleep kept wait next hf => exact .asleep (h.trans kept) wait next hf

theorem sends_sleepOr {wait : Wait} {k : Node → ℤ → Node × Next} (h : Keeps c n m)
    (hr : (m.proc c).rts.receiving = true) (hg : (m.proc c).getfrom = ep)
    (hk : ∀ u, Keeps c n u →
      Keeps c n (k u EMol.again).1 ∧ (k u EMol.again).2 = .ret EMol.again) :
    Sends c ep n (m.sleepOr c timeout (.sleep (.sendrec ep) wait) k) := by
  unfold sleepOr
  split
  · have hup : Keeps c n (m.modProc c fun p => { p.wakeMigr with rcode := EMol.again }) := by
      refine h.modProc c fun p => ?_
      unfold Proc.wakeMigr
      split <;> rfl
    obtain ⟨hkept, hnext⟩ := hk _ hup
    exact .failed hkept _ hnext (by decide)
  · refine .asleep (h.modProc c fun _ => by rfl) wait rfl ?_
    rw [modProc_same]
    exact .of_waits hr hg nofun (.inl (show (-1 : ℤ) < 0 by decide))

theorem sends_sendrecRemote (hg : (n.proc c).getfrom = ep) :
    Sends c ep n (n.sendrecRemote c ep timeout cp) := by
  unfold sendrecRemote
  dsimp only
  split
  · rename_i hne
    exact .failed (.refl n) _ rfl hne
  · generalize hu : (n.modProc c fun p => { p with rts := { p.rts with receiving := true } }) = u
    have hnu : Keeps c n u := by
      rw [← hu]
      exact (Keeps.refl n).modProc c fun _ => by rfl
    have huc : (u.proc c).rts.receiving = true ∧ (u.proc c).getfrom = ep := by
      rw [← hu, modProc_same]
      exact ⟨rfl, hg⟩
    have hfield : ∀ {α : Type} (g : Proc → α), (∀ p px, g { p with proxy := px } = g p) →
        (∀ p rts dst cmd, rts = { p.rts with sending := true, rmtoper := true } →
          g { p with rts := rts, sendto := dst, rmtcmd := cmd } = g p) →
        g ((u.askRemote c .sndrecMsg ep EMol.ok (u.handed c cp)).proc c) = g (u.proc c) := by
      intro α g hg hg'
      refine (sproxyEnqueue_field g hg c).trans ?_
      rw [modProc_same]
      exact hg' _ _ _ _ rfl
    refine sends_sleepOr (hnu.askRemote _ _ _ _) ?_ ?_ fun v hv => ⟨?_, rfl⟩
    · exact (hfield (fun p => p.rts.receiving) (fun _ _ => rfl) fun _ _ _ _ h => by rw [h]).trans
        huc.1
    · exact (hfield Proc.getfrom (fun _ _ => rfl) fun _ _ _ _ _ => rfl).trans huc.2
    · exact hv.leaveProxy.modProc c fun _ => by rfl

theorem sends_sendrecLocal (hd : endpointP ep ≠ c) (hg : (n.proc c).getfrom = ep) :
    Sends c ep n (n.sendrecLocal c ep timeout cp) := by
  unfold sendrecLocal
  dsimp only
  split
  · generalize hu : (n.modProc (endpointP ep) fun p =>
      ({ p with ubuf := if cp = 0 then n.sentBy c else p.ubuf }.endReceive).upIfReady cp) = u
    have hnu : Keeps c n u := by
      rw [← hu]
      exact (Keeps.refl n).upIfReady _ _ cp fun _ => by rfl
    have huc : u.proc c = n.proc c := by rw [← hu, modProc_of_ne _ _ hd.symm]
    split
    · rename_i hcp
      refine .failed ?_ cp rfl hcp
      dsimp only
      exact hnu.modProc c fun _ => by rfl
    · refine sends_sleepOr (hnu.modProc c fun _ => by rfl) ?_ ?_
        fun v hv => ⟨hv.modProc c fun _ => by rfl, rfl⟩
      · rw [modProc_same]
      · rw [modProc_same, huc]
        exact hg
  · refine sends_sleepOr (Keeps.addTail ((Keeps.refl n).modProc c fun _ => by rfl) _ _) ?_ ?_
      fun v hv => ⟨hv.leaveQueue.modProc c fun _ => by rfl, rfl⟩
    · unfold Node.addTail
      rw [modProc_of_ne _ _ hd.symm, modProc_same]
    · unfold Node.addTail
      rw [modProc_of_ne _ _ hd.symm, modProc_same]
      exact hg

theorem sends_sendrecReplay (hd : endpointP ep ≠ c)
    (h : n.sendrecReplay c ep timeout cp = some r) : Sends c ep n r := by
  generalize hu : (n.modProc c fun p => { p with rcode := EMol.ok, getfrom := ep }) = u at *
  have hnu : Keeps c n u := by
    rw [← hu]
    exact (Keeps.refl n).modProc c fun _ => by rfl
  have hg : (u.proc c).getfrom = ep := by rw [← hu, modProc_same]
  unfold sendrecReplay at h
  split at h
  · rename_i code hdst
    cases h
    refine .failed (.refl n) code rfl ?_
    rintro rfl
    unfold sendDst at hdst
    dsimp only at hdst
    split_ifs at hdst
    all_goals exact absurd (PartyCheck.err.inj hdst) (by decide)
  · unfold waitMigr at h
    split at h <;> cases h
    refine .migr ?_ rfl
    dsimp only
    exact ((Keeps.refl n).modProc c fun _ => by rfl).modProc _ fun _ => by rfl
  · dsimp only at h
    rw [hu] at h
    split at h
    · cases h
      exact .of_keeps hnu (sends_sendrecRemote hg)
    · cases h
      exact .of_keeps hnu (sends_sendrecLocal hd hg)

end Sendrec

end Node

/-! ### Runs -/

def Next.blocks : Next → Bool
  | .ret _ | .sleep _ .migr => false
  | .sleep _ _ => true

namespace Node

/-- The steps that do not go round the filter. A wait ends when it is interrupted or expires, or
when the caller has been woken up. -/
def Unspoilt (b : Bool) (c ep timeout : ℤ) (s : Node × Next) : CallLabel → Prop
  | .other a => s.1.ByOthers c a ∧ (s.2.blocks = true →
    (emits c a = true → (s.1.proc c).rmtcmd.cmd ≠ .ntfyMsg) ∧
      ∀ k ∈ s.1.aims c a, k.spares b ep (s.1.proc c))
  | .wake w _ => (s.1.proc c).mayWake timeout w

structure Filtering (b : Bool) (op : Op) (c ep : ℤ) (s : Node × Next) : Prop where
  isLocal : (s.1.proc c).rts.remote = false
  used : (s.1.proc c).rts.slotFree = false
  same (op' : Op) (wait : Wait) : s.2 = .sleep op' wait → op' = op
  blocked : s.2.blocks = true → (s.1.proc c).Filters b ep
  done : s.2 = .ret EMol.ok →
    (s.1.proc c).rts.receiving = false ∧ (s.1.proc c).ubuf.source = ep

section Runs

variable {b : Bool} {c ep src timeout cp w : ℤ} {op : Op} {wait : Wait} {a : NodeAct}
  {n n' : Node} {r s t : Node × Next}

theorem aims_apart (hcmd : emits c a = true → (n.proc c).rmtcmd.cmd ≠ .ntfyMsg)
    (h : .ready ∈ n.aims c a) : .out ∉ n.aims c a ∧ .replay ∉ n.aims c a := by
  cases a with
  | call q op m timeout cp | wake q op wait timeout w cp =>
    cases op <;> grind [aims, Op.aims]
  | vcopy => grind [aims, VcopyCall.aims]
  | vcopyWake q next w cp => cases next <;> grind [aims, VcopyNext.aims, VcopyCall.aims]
  | put2lcl px hdr pay cp => grind [aims, Hdr.aims]
  | emit x ret pay cp =>
    obtain ⟨rfl, hk⟩ := h
    have hne := hcmd (decide_eq_true rfl)
    simp [hne] at hk
  | migrate => grind [aims, migrAims]
  | _ => exact absurd h (Set.notMem_empty _)

theorem Filtering.other (h : Filtering b op c ep s) (hany : ep ≠ anyEp)
    (hp : Unspoilt b c ep timeout s (.other a)) (hn : s.1.act a = some n') :
    Filtering b op c ep (n', s.2) := by
  have hd := disturbs_act hp.1 h.isLocal h.used hn
  refine ⟨hd.isLocal h.isLocal, hd.desc.sameProcess.used h.used, h.same, fun hb => ?_, fun hr => ?_⟩
  · obtain ⟨hcmd, hk⟩ := hp.2 hb
    exact hd.desc.filters hany hk (aims_apart hcmd) (h.blocked hb)
  · obtain ⟨hidle, hsource⟩ := h.done hr
    obtain ⟨h1, h2⟩ := hd.desc.buffered hidle
    exact ⟨h1, (congrArg Message.source h2).trans hsource⟩

theorem got_after {code : ℤ} (hf : (n.proc c).Filters b ep) (hw : (n.proc c).mayWake timeout w)
    (hcode : (n.proc c).sleepResult timeout w = code) (hok : code = EMol.ok) {v : Node}
    (hv : (n.modProc c (Proc.roused code)).modProc c Proc.wakeMigr = v) :
    (v.proc c).rts.receiving = false ∧ ((v.proc c).got b).source = ep := by
  obtain ⟨hr, hg⟩ := hf.got_of_ok hw (hcode.trans hok)
  rw [← hv, modProc_same, modProc_same]
  have hcore := ((n.proc c).roused code).wakeMigr_core
  refine ⟨(congrArg Core.receiving hcore).trans hr, ?_⟩
  rw [Proc.got_congr hcore]
  exact hg

theorem keeps_roused (code : ℤ) : Keeps c n (n.modProc c (Proc.roused code)) :=
  (Keeps.refl n).modProc c fun _ => by rfl

theorem keeps_wakeReceive (h : n.wake c (.receive src) wait timeout w cp = some r) :
    Keeps c n r.1 := by
  obtain ⟨code, -, ⟨-, rfl⟩ | h⟩ := wake_inv h
  · exact keeps_roused code
  · have hv : Keeps c n ((n.modProc c (Proc.roused code)).modProc c Proc.wakeMigr) :=
      (keeps_roused code).wakeMigr
    cases wait with
    | message =>
      cases h
      unfold receiveEnd
      split
      · dsimp only
        exact (hv.modProc c fun _ => by rfl).modProc c fun _ => by rfl
      · dsimp only
        exact hv.modProc c fun _ => by rfl
    | migr | remote | queued | answer => cases h

theorem wakeSendrec_cases (hd : endpointP ep ≠ c)
    (h : n.wake c (.sendrec ep) wait timeout w cp = some r) :
    ∃ code, (n.proc c).sleepResult timeout w = code ∧
      (code ≠ EMol.ok ∧ r = (n.modProc c (Proc.roused code), .sleep (.sendrec ep) wait) ∨
        code = EMol.ok ∧ wait ≠ .migr ∧
          r = ((n.modProc c (Proc.roused code)).modProc c Proc.wakeMigr, .ret EMol.ok) ∨
        Sends c ep n r) := by
  obtain ⟨code, hcode, hgo | h⟩ := wake_inv h
  · exact ⟨code, hcode, .inl hgo⟩
  refine ⟨code, hcode, .inr ?_⟩
  generalize hv : (n.modProc c (Proc.roused code)).modProc c Proc.wakeMigr = v at *
  have hnv : Keeps c n v := hv ▸ (keeps_roused code).wakeMigr
  have hretry : ∀ {left : Node}, wait ≠ .migr → Keeps c n left →
      (if code = EMol.ok then some (v, .ret code)
        else if code = EMol.migrate then left.sendrecReplay c ep timeout cp
        else some (left, .ret code)) = some r →
      code = EMol.ok ∧ wait ≠ .migr ∧ r = (v, .ret EMol.ok) ∨ Sends c ep n r := by
    intro left hm hleft h
    split at h
    · rename_i hok
      cases h
      exact .inl ⟨hok, hm, by rw [hok]⟩
    split at h
    · exact .inr (.of_keeps hleft (sends_sendrecReplay hd h))
    · rename_i hok _
      cases h
      exact .inr (.failed hleft code rfl hok)
  cases wait with
  | migr => exact .inr (.of_keeps hnv (sends_sendrecReplay hd h))
  | remote =>
    exact hretry (by decide) (hnv.leaveProxy.modProc c fun _ => by rfl) h
  | queued =>
    exact hretry (by decide) (hnv.leaveQueue.modProc c fun _ => by rfl) h
  | answer =>
    simp only [resume] at h
    split at h
    · rename_i hok
      cases h
      exact .inl ⟨hok, by decide, by rw [hok]⟩
    · rename_i hok
      cases h
      exact .inr (.failed (hnv.modProc c fun _ => by rfl) code rfl hok)
  | message => cases h

theorem Keeps.isLocal (h : Keeps c n n') (hc : (n.proc c).rts.remote = false) :
    (n'.proc c).rts.remote = false := (congrArg Prod.fst h.kept).trans hc

theorem Keeps.used (h : Keeps c n n') (hc : (n.proc c).rts.slotFree = false) :
    (n'.proc c).rts.slotFree = false := (congrArg (fun l => l.2.1) h.kept).trans hc

theorem Sends.filtering (h : Sends c ep n r) (hc : (n.proc c).rts.remote = false)
    (hu : (n.proc c).rts.slotFree = false) : Filtering false (.sendrec ep) c ep r := by
  obtain ⟨m, next⟩ := r
  cases h with
  | failed kept code hnext hne =>
    subst hnext
    exact ⟨kept.isLocal hc, kept.used hu, nofun, nofun, fun h => absurd (Next.ret.inj h) hne⟩
  | migr kept hnext =>
    subst hnext
    exact ⟨kept.isLocal hc, kept.used hu, fun _ _ h => by cases h; rfl, nofun, nofun⟩
  | asleep kept wait hnext hf =>
    subst hnext
    exact ⟨kept.isLocal hc, kept.used hu, fun _ _ h => by cases h; rfl, fun _ => hf, nofun⟩

theorem Filtering.wakeSendrec (h : Filtering false (.sendrec ep) c ep s) (hd : endpointP ep ≠ c)
    (hs : s.2 = .sleep (.sendrec ep) wait) (hw : (s.1.proc c).mayWake timeout w)
    (ht : s.1.wake c (.sendrec ep) wait timeout w cp = some t) :
    Filtering false (.sendrec ep) c ep t := by
  have hblocked : wait ≠ .migr → (s.1.proc c).Filters false ep := fun hm =>
    h.blocked (by rw [hs]; cases wait <;> first | rfl | exact absurd rfl hm)
  obtain ⟨code, hcode, ⟨hne, rfl⟩ | ⟨hok, hm, rfl⟩ | hsends⟩ := wakeSendrec_cases hd ht
  · have hkept : Keeps c s.1 (s.1.modProc c (Proc.roused code)) := keeps_roused code
    refine ⟨hkept.isLocal h.isLocal, hkept.used h.used, fun _ _ h => by cases h; rfl, fun hb => ?_,
      nofun⟩
    have hneg : code < 0 := hcode ▸ Proc.sleepResult_neg (hcode ▸ hne)
    rw [modProc_same]
    exact (h.blocked (by rw [hs]; exact hb)).roused hneg
  · have hkept : Keeps c s.1 ((s.1.modProc c (Proc.roused code)).modProc c Proc.wakeMigr) :=
      (keeps_roused code).wakeMigr
    exact ⟨hkept.isLocal h.isLocal, hkept.used h.used, nofun, nofun,
      fun _ => got_after (hblocked hm) hw hcode hok rfl⟩
  · exact hsends.filtering h.isLocal h.used

theorem Filtering.wakeReceive (h : Filtering true (.receive src) c src s)
    (hs : s.2 = .sleep (.receive src) wait) (hw : (s.1.proc c).mayWake timeout w)
    (ht : s.1.wake c (.receive src) wait timeout w cp = some t) :
    Filtering true (.receive src) c src t := by
  have hkept := keeps_wakeReceive ht
  obtain ⟨code, hcode, ⟨hne, rfl⟩ | hres⟩ := wake_inv ht
  · refine ⟨hkept.isLocal h.isLocal, hkept.used h.used, fun _ _ h => by cases h; rfl, fun hb => ?_,
      nofun⟩
    have hneg : code < 0 := hcode ▸ Proc.sleepResult_neg (hcode ▸ hne)
    rw [modProc_same]
    exact (h.blocked (by rw [hs]; exact hb)).roused hneg
  · cases wait with
    | message =>
      cases hres
      refine ⟨hkept.isLocal h.isLocal, hkept.used h.used, ?_, ?_, ?_⟩
      all_goals
        generalize hv : (s.1.modProc c (Proc.roused code)).modProc c Proc.wakeMigr = v
        unfold receiveEnd
      · split <;> nofun
      · split <;> nofun
      · split
        · rename_i hne
          exact fun h => absurd (Next.ret.inj h) hne
        · rename_i hok
          rw [not_not] at hok
          obtain ⟨hr, hg⟩ := got_after (h.blocked (by rw [hs]; rfl)) hw hcode hok hv
          intro hret
          rw [modProc_same]
          refine ⟨hr, ?_⟩
          -- a notice is copied, unless the copy fails and the call with it
          unfold Proc.got at hg
          cases hn : (v.proc c).misc.notify with
          | false =>
            rw [hn] at hg
            simpa using hg
          | true =>
            rw [hn] at hg hret
            have hcp : cp = 0 := Next.ret.inj hret
            simpa [hcp] using hg
    | migr | remote | queued | answer => cases hres

theorem filtering_of_reachable (hany : ep ≠ anyEp) (h : Filtering b op c ep r)
    (hwake : ∀ s t wait w cp, Filtering b op c ep s → s.2 = .sleep op wait →
      (s.1.proc c).mayWake timeout w → s.1.wake c op wait timeout w cp = some t →
      Filtering b op c ep t)
    (hs : Reachable (callStep c timeout) (Unspoilt b c ep timeout) r s) :
    Filtering b op c ep s := by
  refine hs.invariant h fun s l t h hp ht => ?_
  cases l with
  | other a =>
    obtain ⟨n', hn, rfl⟩ := Option.map_eq_some_iff.mp ht
    exact h.other hany hp hn
  | wake w cp =>
    unfold callStep at ht
    dsimp only at ht
    split at ht
    · cases ht
    · rename_i op' wait hnext
      obtain rfl := h.same op' wait hnext
      exact hwake s t wait w cp h hnext hp ht

theorem receive_blocks (hc : (n.proc c).rts.remote = false) (hu : (n.proc c).rts.slotFree = false)
    (h : n.miniReceive c src timeout cp = r) (hs : r.2 = .sleep op wait) :
    Keeps c n r.1 ∧ Filtering true (.receive src) c src r := by
  have hno : ∀ {m : Node} {code : ℤ}, (m, Next.ret code) ≠ r := by
    rintro m code rfl
    cases hs
  unfold miniReceive at h
  split at h
  · exact absurd h hno
  split at h
  · exact absurd h hno
  split at h
  · unfold receivePending at h
    split at h <;> exact absurd h hno
  split at h
  · unfold receiveFrom at h
    dsimp only at h
    split at h <;> exact absurd h hno
  · unfold sleepOr at h
    split at h
    · dsimp only [receiveEnd] at h
      rw [if_pos (show EMol.again ≠ EMol.ok by decide)] at h
      exact absurd h hno
    · subst h
      have hblock : Keeps c n (n.blockReceiving c src) :=
        (Keeps.refl n).modProc c fun _ => by rfl
      have hkept : Keeps c n ((n.blockReceiving c src).modProc c Proc.fallAsleep) :=
        hblock.modProc c fun _ => by rfl
      refine ⟨hkept, hkept.isLocal hc, hkept.used hu, fun _ _ h => by cases h; rfl, fun _ => ?_,
        nofun⟩
      rw [modProc_same, blockReceiving, modProc_same]
      exact .of_waits rfl rfl (fun _ => rfl) (.inl (show (-1 : ℤ) < 0 by decide))

theorem sendrec_begins {m : Message} (h : n.miniSendrec c ep m timeout cp = some r) :
    n.sendEntry c ep ≠ EMol.ok ∧ r = (n, .ret (n.sendEntry c ep)) ∨
      endpointP ep ≠ c ∧ Sends c ep n r := by
  unfold miniSendrec at h
  split at h
  · rename_i hne
    exact .inl ⟨hne, (Option.some.inj h).symm⟩
  split at h
  · cases h
  · rename_i hd
    refine .inr ⟨hd, .of_keeps ?_ (sends_sendrecReplay hd h)⟩
    exact (Keeps.refl n).modProc c fun _ => by rfl

end Runs

/-! ### What a receive finds at once -/

/-- The source of the notification with the bit `id` for `c`: that of `c` itself is the hardware. -/
def noticeSource (n : Node) (c : ℤ) (id : ℕ) : ℤ :=
  if id - n.conf.dcNrTasks = c then hardwareNr else id - n.conf.dcNrTasks

/-- The receive of `c` has got a message of `src`, and notifications and messages of others stay
where they are. -/
structure Filtered (c src : ℤ) (n n' : Node) : Prop where
  source : (n'.proc c).ubuf.source = src
  pending (id : ℕ) : n.noticeSource c id ≠ src →
    (n'.proc c).notifyPending id = (n.proc c).notifyPending id
  queue (x : ℤ) : (n.proc x).endpoint ≠ src → x ∈ (n.proc c).list → x ∈ (n'.proc c).list

/-- The first pending notification or, if there is none, the message that the first sender `src` of
another node has left, is of `src`. -/
def FindsSource (n : Node) (c src : ℤ) : Prop :=
  (∀ id, n.pendingBit c = some id → n.noticeSource c id = src) ∧
    ∀ x, n.pendingBit c = none → n.firstSender c src = some x →
      (n.proc x).rts.remote = true → (n.proc x).message.source = src

section Now

variable {n n' : Node} {c src timeout cp : ℤ}

theorem receivePending_filtered_iff {id : ℕ}
    (h : n.receivePending c id cp = (n', .ret EMol.ok)) :
    Filtered c src n n' ↔ n.noticeSource c id = src := by
  unfold receivePending at h
  dsimp only at h
  split at h
  · exact absurd (Next.ret.inj (congrArg Prod.snd h)) (by decide)
  obtain rfl : _ = n' := congrArg Prod.fst h
  generalize hu : (n.modProc c fun p =>
    { p with notifyPending := Function.update p.notifyPending id false }.buildNotify
      (id - n.conf.dcNrTasks = c) (id - n.conf.dcNrTasks) (id - n.conf.dcNrTasks)) = u
  have hmsg : (u.proc c).message.source = n.noticeSource c id := by
    rw [← hu, modProc_same, noticeSource]
    unfold Proc.buildNotify
    split_ifs <;> simp_all
  have hkeep : (u.proc c).list = (n.proc c).list ∧
      (u.proc c).notifyPending = Function.update (n.proc c).notifyPending id false := by
    rw [← hu, modProc_same]
    unfold Proc.buildNotify
    split_ifs <;> exact ⟨rfl, rfl⟩
  refine ⟨fun hf => hmsg.symm.trans ?_, fun hsrc => ⟨?_, fun id' hid => ?_, fun x _ hx => ?_⟩⟩
  · have hs := hf.source
    rw [modProc_same] at hs
    exact hs
  · rw [modProc_same]
    exact hmsg.trans hsrc
  · rw [modProc_same]
    rw [hkeep.2, Function.update_of_ne]
    rintro rfl
    exact hid hsrc
  · rw [modProc_same]
    exact hkeep.1 ▸ hx

theorem receiveFrom_filtered_iff {x : ℤ} (hne : (n.proc c).endpoint ≠ src)
    (hx : (n.proc x).endpoint = src) (h : n.receiveFrom c x cp = (n', .ret EMol.ok)) :
    Filtered c src n n' ↔ ((n.proc x).rts.remote = true → (n.proc x).message.source = src) := by
  have hxc : x ≠ c := by
    rintro rfl
    exact hne hx
  have hself := receiveFrom_self hxc h
  have hsource : (n'.proc c).ubuf.source = src ↔
      ((n.proc x).rts.remote = true → (n.proc x).message.source = src) := by
    rw [hself]
    unfold queuedMessage
    split
    · rename_i hr
      simp [hr]
    · rename_i hr
      simp [hr, sentBy, hx]
  refine ⟨fun hf => hsource.mp hf.source, fun hs => ⟨hsource.mpr hs, fun id _ => ?_, ?_⟩⟩
  · rw [hself]
  · intro y hy hl
    rw [hself]
    refine List.mem_filter.mpr ⟨hl, decide_eq_true ?_⟩
    rintro rfl
    exact hy hx

theorem receive_filtered_iff (hany : src ≠ anyEp)
    (h : n.miniReceive c src timeout cp = (n', .ret EMol.ok)) :
    Filtered c src n n' ↔ n.FindsSource c src := by
  have hret : ∀ {m : Node} {code : ℤ}, (m, Next.ret code) = (n', .ret EMol.ok) → code = EMol.ok :=
    fun h => Next.ret.inj (congrArg Prod.snd h)
  unfold miniReceive at h
  split at h
  · exact absurd (hret h) ‹_›
  rename_i hentry
  split at h
  · exact absurd (hret h) (by decide)
  have hself : (n.proc c).endpoint ≠ src := by
    intro heq
    rw [not_not] at hentry
    unfold receiveEntry at hentry
    split_ifs at hentry
    all_goals first | exact absurd hentry ‹_› | exact absurd hentry (by decide)
  unfold FindsSource
  split at h
  · rename_i id hid
    rw [receivePending_filtered_iff h, hid]
    simp
  rename_i hid
  split at h
  · rename_i x hx
    obtain ⟨l₁, l₂, hfirst⟩ := firstSender_eq_some hx
    have hep : (n.proc x).endpoint = src := hfirst.accepted.resolve_right hany
    rw [receiveFrom_filtered_iff hself hep h, hid, hx]
    simp
  · unfold sleepOr at h
    split at h
    · dsimp only [receiveEnd] at h
      rw [if_pos (show EMol.again ≠ EMol.ok by decide)] at h
      exact absurd (hret h) (by decide)
    · cases h

end Now

/-! ### The filter -/

/-- In every run from `r` that does not go round the filter the call returns `OK` with a message of
`ep` only, and leaves the rest alone. -/
def KeepsFilter (b : Bool) (c ep timeout : ℤ) (r : Node × Next) : Prop :=
  ∀ s, Reachable (callStep c timeout) (Unspoilt b c ep timeout) r s →
    (s.2 = .ret EMol.ok → (s.1.proc c).ubuf.source = ep) ∧
    ∀ w cp t, callStep c timeout s (.wake w cp) = some t → Keeps c s.1 t.1

section Main

variable {n : Node} {c ep timeout cp : ℤ} {op : Op} {wait : Wait} {r s t : Node × Next}

theorem keepsFilter_receive (hany : ep ≠ anyEp) (h : Filtering true (.receive ep) c ep r) :
    KeepsFilter true c ep timeout r := by
  intro s hs
  have hrun := filtering_of_reachable hany h (fun _ _ _ _ _ h hs hw ht => h.wakeReceive hs hw ht) hs
  refine ⟨fun hret => (hrun.done hret).2, fun w cp t ht => ?_⟩
  unfold callStep at ht
  dsimp only at ht
  split at ht
  · cases ht
  · rename_i op' wait hnext
    obtain rfl := hrun.same op' wait hnext
    exact keeps_wakeReceive ht

theorem keepsFilter_sendrec (hany : ep ≠ anyEp) (hd : endpointP ep ≠ c)
    (h : Filtering false (.sendrec ep) c ep r) : KeepsFilter false c ep timeout r := by
  intro s hs
  have hrun := filtering_of_reachable hany h
    (fun _ _ _ _ _ h hs hw ht => h.wakeSendrec hd hs hw ht) hs
  refine ⟨fun hret => (hrun.done hret).2, fun w cp t ht => ?_⟩
  unfold callStep at ht
  dsimp only at ht
  split at ht
  · cases ht
  · rename_i op' wait hnext
    obtain rfl := hrun.same op' wait hnext
    obtain ⟨code, -, ⟨-, rfl⟩ | ⟨-, -, rfl⟩ | hsends⟩ := wakeSendrec_cases hd ht
    · exact keeps_roused code
    · exact (keeps_roused code).wakeMigr
    · exact hsends.kept

theorem keepsFilter_refused {b : Bool} {code : ℤ} (hr : r.2 = .ret code) (hne : code ≠ EMol.ok) :
    KeepsFilter b c ep timeout r := by
  intro s hs
  have hret : s.2 = .ret code := by
    refine hs.invariant (I := fun s => s.2 = .ret code) hr fun s l t hs _ ht => ?_
    cases l with
    | other a =>
      obtain ⟨n', -, rfl⟩ := Option.map_eq_some_iff.mp ht
      exact hs
    | wake w cp =>
      simp [callStep, hs] at ht
  refine ⟨fun hok => absurd (Next.ret.inj (hret.symm.trans hok)) hne, fun w cp t ht => ?_⟩
  simp [callStep, hret] at ht

/-- **The source filter.** A receive from `ep` that returns at once keeps to its source iff what it
finds first is of `ep`. One that blocks and a sendrec keep to it if nothing goes round the filter.
-/
theorem source_filter (hc : (n.proc c).rts.remote = false)
    (hu : (n.proc c).rts.slotFree = false) (hany : ep ≠ anyEp) (timeout cp : ℤ) :
    (∀ n', n.miniReceive c ep timeout cp = (n', .ret EMol.ok) →
      (Filtered c ep n n' ↔ n.FindsSource c ep)) ∧
    (∀ r op wait, n.miniReceive c ep timeout cp = r → r.2 = .sleep op wait →
      Keeps c n r.1 ∧ KeepsFilter true c ep timeout r) ∧
    ∀ m r, n.miniSendrec c ep m timeout cp = some r →
      Keeps c n r.1 ∧ KeepsFilter false c ep timeout r := by
  refine ⟨fun n' h => receive_filtered_iff hany h, fun r op wait h hs => ?_, fun m r h => ?_⟩
  · obtain ⟨hkept, hrun⟩ := receive_blocks hc hu h hs
    exact ⟨hkept, keepsFilter_receive hany hrun⟩
  · obtain ⟨hne, rfl⟩ | ⟨hd, hsends⟩ := sendrec_begins h
    · exact ⟨.refl n, keepsFilter_refused rfl hne⟩
    · exact ⟨hsends.kept, keepsFilter_sendrec hany hd (hsends.filtering hc hu)⟩

end Main

/-! ### A notification of somebody else -/

def filterSample (pending : ℕ → Bool) : Node where
  conf := Conf.sample 0
  proc := fun q =>
    if q = 5 then { Proc.sample 0 5 {} with notifyPending := pending }
    else if q = 6 then Proc.sample 0 6 {}
    else if q = 7 then Proc.sample 0 7 {}
    else {}
  sproxy := Proc.sampleProxy
  rproxy := Proc.sampleProxy

/-- The process 5 waits for a message of 6, and gets it. -/
theorem filterSample_filtered :
    ∃ s, Reachable (callStep 5 100) (Unspoilt true 5 6 100)
        ((filterSample fun _ => false).miniReceive 5 6 100 0) s ∧
      s.2 = .ret EMol.ok ∧ (s.1.proc 5).ubuf.source = 6 := by
  have hrun : ∃ s, Reachable (callStep 5 100) (Unspoilt true 5 6 100)
      ((filterSample fun _ => false).miniReceive 5 6 100 0) s ∧ s.2 = .ret EMol.ok := by
    refine ⟨_, .step (.step .init (a := .other (.call 6 (.send 5) {} 100 0)) ?_ rfl)
      (a := .wake 1 0) ?_ rfl, rfl⟩
    · refine ⟨show (6 : ℤ) ≠ 5 by decide, fun _ => ⟨nofun, ?_⟩⟩
      rintro k ⟨-, rfl⟩
      exact trivial
    · exact .inr (.inr (by decide))
  obtain ⟨s, hs, hret⟩ := hrun
  refine ⟨s, hs, hret, ?_⟩
  obtain ⟨-, hfilter⟩ := (source_filter (n := filterSample fun _ => false) (c := 5) rfl rfl
    (show (6 : ℤ) ≠ anyEp by decide) 100 0).2.1 _ _ _ rfl rfl
  exact (hfilter s hs).1 hret

/-- The process 5 receives from 6 and gets a notification of 7. In a sendrec to 6, a notification of
6 ends the wait with the message that 5 has sent itself. -/
theorem receive_wrong_source :
    (((filterSample (· = 42)).miniReceive 5 6 100 0).2,
        (((filterSample (· = 42)).miniReceive 5 6 100 0).1.proc 5).ubuf.source,
        (((filterSample (· = 42)).miniReceive 5 6 100 0).1.proc 5).notifyPending 42) =
      (.ret EMol.ok, 7, false) ∧
    ((((filterSample fun _ => false).miniReceive 6 anyEp 100 0).1.call 5 (.sendrec 6)
        { source := 99 } 100 0).bind fun s =>
      (callStep 5 100 s (.other (.call 6 (.notify selfEp 5 0) {} 100 0))).bind fun s =>
        if (s.1.proc 5).mayWake 100 1 then callStep 5 100 s (.wake 1 0) else none).map
      (fun s => (s.2, (s.1.proc 5).ubuf.source)) = some (.ret EMol.ok, 99) := by
  decide

end Node

end MolIpc
