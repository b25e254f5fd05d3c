import MolIpc.Ipc.Commands
import Mathlib.Order.Nat

/-!
What the others may do to a process that sleeps in a call.

A process `c` that sleeps does not run, but its descriptor is in the hands of the processes, the
proxies and the administrators of its node: they deliver messages to it, take its own message, wake
it up, link and unlink it. The relation `Disturbs` says what one step of theirs comes to for `c`:
its descriptor goes through changes of the kinds that the step is good for (`Chg`), and nobody links
it to a queue. All that the others do by edits comes to that.
-/

namespace MolIpc

open Relation Sections

variable {p q : Proc}

/-! ### Changes of a descriptor -/

theorem Proc.links_of_outer (h : p.outer = q.outer) : p.links = q.links :=
  congrArg Prod.fst h

theorem Proc.heads_of_outer (h : p.outer = q.outer) : p.heads = q.heads :=
  congrArg Prod.fst (links_of_outer h)

@[simp] theorem Proc.upIfReady_links (p : Proc) (code : ℤ) : (p.upIfReady code).links = p.links :=
  links_of_outer (p.upIfReady_outer code)

theorem Proc.heads_eq (h : p.heads = q.heads) :
    p.list = q.list ∧ p.mlist = q.mlist ∧ p.ulist = q.ulist := by
  simpa [heads] using h

section Chgs

variable {K L : Set Kind} {k : Kind} {p p' : Proc}

theorem Chgs.frame (h : p'.core = p.core) : Chgs K p p' := .single ⟨_, .frame p p' h, .inl rfl⟩

theorem Chgs.calm (h : Chg .calm p p') : Chgs K p p' := .single ⟨_, h, .inl rfl⟩

theorem Chgs.one (h : Chg k p p') (hk : k ∈ K) : Chgs K p p' := .single ⟨k, h, .inr hk⟩

theorem Chgs.upIfReady_error (p : Proc) {code : ℤ} (h : code < 0) :
    Chgs K p (p.upIfReady code) := by
  unfold Proc.upIfReady
  split
  · exact .calm (.error p code h)
  · exact .refl

structure SameProcess (p p' : Proc) : Prop where
  endpoint : p'.endpoint = p.endpoint
  remote : p'.rts.remote = p.rts.remote
  used : p.rts.slotFree = false → p'.rts.slotFree = false

theorem Chg.sameProcess (h : Chg k p p') : SameProcess p p' := by
  have hup : ∀ (q : Proc) (code : ℤ), SameProcess q (q.upIfReady code) := fun q code =>
    ⟨q.upIfReady_endpoint code, by rw [q.upIfReady_rts], by rw [q.upIfReady_rts]; exact id⟩
  cases h with
  | frame _ _ h | unsent _ _ h | mark _ _ h =>
    exact ⟨congrArg Core.endpoint h, congrArg Core.remote h,
      fun hf => (congrArg Core.slotFree h).trans hf⟩
  | error | acked => exact ⟨rfl, rfl, id⟩
  | served _ code _ =>
    obtain ⟨h1, h2, h3⟩ := hup p.endSend code
    exact ⟨h1, h2, h3⟩
  | ready _ code => exact hup p code
  | message _ m _ | request _ m _ | copied _ m _ =>
    obtain ⟨h1, h2, h3⟩ := hup ({ p with ubuf := m }.endReceive) EMol.ok
    exact ⟨h1, h2, h3⟩
  | failed _ _ code _ =>
    obtain ⟨h1, h2, h3⟩ := hup p.endReceive code
    exact ⟨h1, h2, h3⟩
  | replay =>
    obtain ⟨h1, h2, h3⟩ := hup { p with
      rts := { p.rts with sending := false, receiving := false }
      getfrom := noneEp, sendto := noneEp } EMol.migrate
    exact ⟨h1, h2, h3⟩
  | dropped _ _ h | lost _ _ h => exact ⟨rfl, h.symm, fun _ => rfl⟩
  | notice _ self ep nr _ =>
    have hn := Proc.buildNotify_frame p self ep nr
    obtain ⟨h1, h2, h3⟩ := hup ({ p.buildNotify self ep nr with
      misc := { (p.buildNotify self ep nr).misc with notify := true } }.endReceive) EMol.ok
    exact ⟨h1.trans (congrArg Core.endpoint hn), h2.trans (congrArg Core.remote hn),
      fun hf => h3 ((congrArg Core.slotFree hn).trans hf)⟩

theorem Chgs.sameProcess (h : Chgs K p p') : SameProcess p p' := by
  induction h with
  | refl => exact ⟨rfl, rfl, id⟩
  | tail _ hstep ih =>
    obtain ⟨k, hc, -⟩ := hstep
    obtain ⟨h1, h2, h3⟩ := hc.sameProcess
    exact ⟨h1.trans ih.endpoint, h2.trans ih.remote, h3 ∘ ih.used⟩

/-- A process that waits for a message, after a change that brings none: it waits on, or has been
woken up with an error. -/
structure WaitsOn (p p' : Proc) : Prop where
  receiving : p'.rts.receiving = true
  sending : p'.rts.sending = true → p.rts.sending = true
  getfrom : p'.getfrom = p.getfrom
  ubuf : p'.ubuf = p.ubuf
  message : p'.message = p.message
  asleep : p.pseudosem < 0 ∨ p.rcode < 0 → p'.pseudosem < 0 ∨ p'.rcode < 0

theorem WaitsOn.refl (h : p.rts.receiving = true) : WaitsOn p p := ⟨h, id, rfl, rfl, rfl, id⟩

theorem WaitsOn.trans (h : WaitsOn p p') (h' : WaitsOn p' q) : WaitsOn p q :=
  ⟨h'.receiving, h.sending ∘ h'.sending, h'.getfrom.trans h.getfrom, h'.ubuf.trans h.ubuf,
    h'.message.trans h.message, h'.asleep ∘ h.asleep⟩

/-- A process that does not wait for a message, or not any more: nothing is delivered to it. -/
structure StaysIdle (p p' : Proc) : Prop where
  receiving : p'.rts.receiving = false
  sending : p'.rts.sending = false
  ubuf : p'.ubuf = p.ubuf
  message : p'.message = p.message

theorem StaysIdle.trans (h : StaysIdle p p') (h' : StaysIdle p' q) : StaysIdle p q :=
  ⟨h'.receiving, h'.sending, h'.ubuf.trans h.ubuf, h'.message.trans h.message⟩

theorem Proc.upIfReady_of_receiving (h : p.rts.receiving = true) (code : ℤ) :
    p.upIfReady code = p := by
  refine if_neg fun hr => ?_
  rw [hr] at h
  cases h

theorem WaitsOn.of_core {b b' : Bool} (h : p'.core = { p.core with sending := b, notify := b' })
    (hb : b = true → p.rts.sending = true) (hr : p.rts.receiving = true) : WaitsOn p p' := by
  have hrec : p'.rts.receiving = p.rts.receiving := congrArg Core.receiving h
  have hsend : p'.rts.sending = b := congrArg Core.sending h
  have hcode : p'.rcode = p.rcode := congrArg Core.rcode h
  have hsem : p'.pseudosem = p.pseudosem := congrArg Core.pseudosem h
  exact ⟨hrec.trans hr, fun hs => hb (hsend.symm.trans hs), congrArg Core.getfrom h,
    congrArg Core.ubuf h, congrArg Core.message h, by rw [hcode, hsem]; exact id⟩

theorem Chg.waitsOn (h : Chg k p p') (hk : k = .calm ∨ k = .ready ∨ k = .mark)
    (hr : p.rts.receiving = true) : WaitsOn p p' := by
  cases h with
  | frame _ _ h => exact .of_core h id hr
  | unsent _ _ h => exact .of_core h nofun hr
  | mark _ _ h => exact .of_core h id hr
  | error _ code hneg => exact ⟨hr, id, rfl, rfl, rfl, fun _ => .inr hneg⟩
  | served _ code _ =>
    have hstay : p.endSend.rts.receiving = true := hr
    rw [Proc.upIfReady_of_receiving hstay]
    exact ⟨hr, nofun, rfl, rfl, rfl, id⟩
  | ready _ code =>
    rw [Proc.upIfReady_of_receiving hr]
    exact .refl hr
  | acked _ code ho =>
    rw [ho] at hr
    cases hr
  | message | request | notice | copied | failed | replay | dropped | lost => simp at hk

theorem Chg.staysIdle (h : Chg k p p') (hr : p.rts.receiving = false)
    (hs : p.rts.sending = false) : StaysIdle p p' := by
  have hup : ∀ {q : Proc} (code : ℤ), q.rts.receiving = false → q.rts.sending = false →
      q.ubuf = p.ubuf → q.message = p.message → StaysIdle p (q.upIfReady code) := by
    intro q code h1 h2 h3 h4
    unfold Proc.upIfReady
    split <;> exact ⟨h1, h2, h3, h4⟩
  have hno : ∀ {ep : ℤ}, ¬ p.waitsFor ep := fun hw => Bool.false_ne_true (hr.symm.trans hw.1)
  cases h with
  | frame _ _ h | mark _ _ h =>
    exact ⟨(congrArg Core.receiving h).trans hr, (congrArg Core.sending h).trans hs,
      congrArg Core.ubuf h, congrArg Core.message h⟩
  | unsent _ _ h =>
    exact ⟨(congrArg Core.receiving h).trans hr, congrArg Core.sending h,
      congrArg Core.ubuf h, congrArg Core.message h⟩
  | error | acked => exact ⟨hr, hs, rfl, rfl⟩
  | served _ code h =>
    simp [hs] at h
  | ready _ code => exact hup code hr hs rfl rfl
  | message _ _ h | request _ _ h | copied _ _ h | failed _ _ _ h | notice _ _ _ _ h =>
    exact absurd h hno
  | replay => exact hup EMol.migrate rfl rfl rfl rfl
  | dropped | lost => exact ⟨rfl, rfl, rfl, rfl⟩

theorem Chgs.waitsOn (h : Chgs K p p') (hK : ∀ k ∈ K, k = .ready ∨ k = .mark)
    (hr : p.rts.receiving = true) : WaitsOn p p' := by
  induction h with
  | refl => exact .refl hr
  | tail _ hstep ih =>
    obtain ⟨k, hc, hk⟩ := hstep
    exact ih.trans (hc.waitsOn (hk.imp_right (hK k)) ih.receiving)

theorem Chgs.staysIdle (h : Chgs K p p') (hr : p.rts.receiving = false)
    (hs : p.rts.sending = false) : StaysIdle p p' := by
  induction h with
  | refl => exact ⟨hr, hs, rfl, rfl⟩
  | tail _ hstep ih =>
    obtain ⟨k, hc, -⟩ := hstep
    exact ih.trans (hc.staysIdle ih.receiving ih.sending)

theorem Chg.ends (h : Chg k p p') (hk : ¬ (k = .calm ∨ k = .ready ∨ k = .mark))
    (hs : p.rts.sending = false) : p'.rts.receiving = false ∧ p'.rts.sending = false := by
  have hup : ∀ {q : Proc} (code : ℤ), q.rts.receiving = false → q.rts.sending = false →
      (q.upIfReady code).rts.receiving = false ∧ (q.upIfReady code).rts.sending = false := by
    intro q code h1 h2
    rw [q.upIfReady_rts]
    exact ⟨h1, h2⟩
  cases h with
  | message | request | copied => exact hup _ rfl hs
  | failed _ _ code => exact hup code rfl hs
  | notice _ self ep nr =>
    exact hup _ rfl ((congrArg Core.sending (p.buildNotify_frame self ep nr)).trans hs)
  | replay => exact hup _ rfl rfl
  | dropped | lost => exact ⟨rfl, rfl⟩
  | frame | error | unsent | served | ready | acked | mark => simp at hk

/-- **What becomes of a wait for a message**: it goes on, or one change has ended it. -/
theorem Chgs.ends (h : Chgs K p p') (hr : p.rts.receiving = true) (hs : p.rts.sending = false) :
    WaitsOn p p' ∨ ∃ k ∈ K, k ≠ .ready ∧ k ≠ .mark ∧
      ∃ q q', WaitsOn p q ∧ Chg k q q' ∧ StaysIdle q' p' := by
  induction h with
  | refl => exact .inl (.refl hr)
  | @tail b d _ hstep ih =>
    obtain ⟨k, hc, hk⟩ := hstep
    rcases ih with hw | ⟨k', hk', h1, h2, q, q', hq, hqq', hidle⟩
    · by_cases hno : k = .calm ∨ k = .ready ∨ k = .mark
      · exact .inl (hw.trans (hc.waitsOn hno hw.receiving))
      · have hsend : b.rts.sending = false := by
          by_contra hb
          simp [hw.sending (Bool.not_eq_false _ ▸ hb)] at hs
        have hend := hc.ends hno hsend
        rw [not_or, not_or] at hno
        exact .inr ⟨k, hk.resolve_left hno.1, hno.2.1, hno.2.2, b, d, hw, hc,
          ⟨hend.1, hend.2, rfl, rfl⟩⟩
    · exact .inr ⟨k', hk', h1, h2, q, q', hq, hqq',
        hidle.trans (hc.staysIdle hidle.receiving hidle.sending)⟩

end Chgs

namespace Node

/-! ### What a step comes to for the sleeper -/

/-- The descriptor of the sleeper `c` goes through changes of some kinds, nobody links it anywhere,
and its bit `WAITMIGR` goes only when it is taken off all the queues. -/
structure Disturbs (c : ℤ) (K : Set Kind) (n n' : Node) : Prop where
  desc : Chgs K (n.proc c) (n'.proc c)
  list (q : ℤ) : c ∈ (n'.proc q).list → c ∈ (n.proc q).list
  sproxy (px : ℤ) : c ∈ (n'.sproxy px).list → c ∈ (n.sproxy px).list
  mlist (q : ℤ) : (n'.proc q).mlist.count c ≤ (n.proc q).mlist.count c
  ulist (q : ℤ) : c ∈ (n'.proc q).ulist → c ∈ (n.proc q).ulist
  unset : (n'.proc c).rts.waitmigr = true → (n.proc c).rts.waitmigr = true
  waits : .out ∉ K → .lost ∉ K →
    (n'.proc c).rts.waitmigr = (n.proc c).rts.waitmigr ∨ ∀ q, c ∉ (n'.proc q).mlist

section Basic

variable {c x i d : ℤ} {K L : Set Kind} {n m n' : Node} {f : Proc → Proc}

theorem Disturbs.refl (n : Node) : Disturbs c K n n :=
  ⟨.refl, fun _ => id, fun _ => id, fun _ => le_rfl, fun _ => id, id, fun _ _ => .inl rfl⟩

theorem Disturbs.trans (h : Disturbs c K n m) (h' : Disturbs c K m n') : Disturbs c K n n' where
  desc := h.desc.trans h'.desc
  list q := h.list q ∘ h'.list q
  sproxy px := h.sproxy px ∘ h'.sproxy px
  mlist q := (h'.mlist q).trans (h.mlist q)
  ulist q := h.ulist q ∘ h'.ulist q
  unset := h.unset ∘ h'.unset
  waits hK hK' := by
    rcases h'.waits hK hK' with hw' | hw'
    · rcases h.waits hK hK' with hw | hw
      · exact .inl (hw'.trans hw)
      · refine .inr fun q hq => hw q ?_
        have := h'.mlist q
        exact List.count_pos_iff.mp ((List.count_pos_iff.mpr hq).trans_le this)
    · exact .inr hw'

theorem Disturbs.isLocal (h : Disturbs c K n m) (hc : (n.proc c).rts.remote = false) :
    (m.proc c).rts.remote = false := h.desc.sameProcess.remote.trans hc

theorem ne_of_remote (hc : (n.proc c).rts.remote = false) (hx : (n.proc x).rts.remote = true) :
    x ≠ c := by
  rintro rfl
  simp [hc] at hx

theorem Disturbs.sameHeads (h : Disturbs c K n m) (hd : Chgs K (m.proc c) (n'.proc c))
    (hheads : ∀ q, (n'.proc q).heads = (m.proc q).heads) (hproxy : n'.sproxy = m.sproxy)
    (hw : (n'.proc c).rts.waitmigr = (m.proc c).rts.waitmigr) : Disturbs c K n n' := by
  refine h.trans ⟨hd, fun q => ?_, fun px => ?_, fun q => ?_, fun q => ?_, hw.symm.trans,
    fun _ _ => .inl hw⟩
  · rw [(Proc.heads_eq (hheads q)).1]
    exact id
  · rw [hproxy]
    exact id
  · rw [(Proc.heads_eq (hheads q)).2.1]
  · rw [(Proc.heads_eq (hheads q)).2.2]
    exact id

theorem Disturbs.modProc (h : Disturbs c K n m) (i : ℤ) (hl : ∀ p, (f p).links = p.links)
    (hd : i = c → Chgs K (m.proc c) (f (m.proc c))) : Disturbs c K n (m.modProc i f) := by
  have hlinks : ∀ q, ((m.modProc i f).proc q).links = (m.proc q).links := fun q =>
    modProc_field i q Proc.links hl
  refine h.sameHeads ?_ (fun q => congrArg Prod.fst (hlinks q)) rfl (congrArg Prod.snd (hlinks c))
  by_cases hi : i = c
  · subst hi
    rw [modProc_same]
    exact hd rfl
  · rw [modProc_of_ne _ _ (Ne.symm hi)]

theorem Disturbs.between {u v : Node} (h : Disturbs c ∅ u v)
    (hu : ∀ q, (u.proc q).links = (n.proc q).links) (hup : u.sproxy = n.sproxy)
    (hv : ∀ q, (n'.proc q).links = (v.proc q).links) (hvp : n'.sproxy = v.sproxy)
    (hd : Chgs K (n.proc c) (n'.proc c)) : Disturbs c K n n' := by
  have hbit : ∀ {p p' : Proc}, p.links = p'.links → p.rts.waitmigr = p'.rts.waitmigr :=
    fun h => congrArg Prod.snd h
  have hheads : ∀ {p p' : Proc}, p.links = p'.links →
      p.list = p'.list ∧ p.mlist = p'.mlist ∧ p.ulist = p'.ulist :=
    fun h => Proc.heads_eq (congrArg Prod.fst h)
  refine ⟨hd, fun q => ?_, fun px => ?_, fun q => ?_, fun q => ?_, ?_, fun _ _ => ?_⟩
  · rw [(hheads (hv q)).1, ← (hheads (hu q)).1]
    exact h.list q
  · rw [hvp, ← hup]
    exact h.sproxy px
  · rw [(hheads (hv q)).2.1, ← (hheads (hu q)).2.1]
    exact h.mlist q
  · rw [(hheads (hv q)).2.2, ← (hheads (hu q)).2.2]
    exact h.ulist q
  · rw [hbit (hv c), ← hbit (hu c)]
    exact h.unset
  · refine (h.waits nofun nofun).imp (fun hw => ?_) fun hw q => ?_
    · rw [hbit (hv c), hw, hbit (hu c)]
    · rw [(hheads (hv q)).2.1]
      exact hw q

section

variable (h : Disturbs c K n m)

include h

theorem Disturbs.frame (i : ℤ) (hf : ∀ p, ((f p).links, (f p).core) = (p.links, p.core)) :
    Disturbs c K n (m.modProc i f) :=
  h.modProc i (fun p => (Prod.mk.inj (hf p)).1) fun _ => .frame (Prod.mk.inj (hf _)).2

theorem Disturbs.other (hi : i ≠ c) (hl : ∀ p, (f p).heads = p.heads) :
    Disturbs c K n (m.modProc i f) := by
  have hself : (m.modProc i f).proc c = m.proc c := modProc_of_ne _ _ hi.symm
  exact h.sameHeads (by rw [hself]) (fun q => modProc_field i q Proc.heads hl) rfl (by rw [hself])

theorem Disturbs.init (hi : i ≠ c) (dcid : ℤ) : Disturbs c K n (m.modProc i (·.initDesc dcid)) := by
  have hself : (m.modProc i (·.initDesc dcid)).proc c = m.proc c := modProc_of_ne _ _ hi.symm
  have hcases : ∀ q, (m.modProc i (·.initDesc dcid)).proc q = m.proc q ∨
      ((m.modProc i (·.initDesc dcid)).proc q).heads = ([], [], []) := by
    intro q
    by_cases hq : q = i
    · rw [hq, modProc_same]
      exact .inr rfl
    · exact .inl (modProc_of_ne _ _ hq)
  refine h.trans ⟨by rw [hself], fun q => ?_, fun _ => id, fun q => ?_, fun q => ?_,
    by rw [hself]; exact id, fun _ _ => .inl (by rw [hself])⟩
  all_goals
    rcases hcases q with hq | hq
    · rw [hq]
      try exact id
    · simp only [Proc.heads, Prod.mk.injEq] at hq
      simp [hq.1, hq.2.1, hq.2.2]

theorem Disturbs.unlink (x : ℤ) : Disturbs c K n (m.unlink x) :=
  h.trans ⟨.frame rfl, fun _ hq => (List.mem_filter.mp hq).1,
    fun _ hq => (List.mem_filter.mp hq).1, fun _ => le_rfl, fun _ => id, id, fun _ _ => .inl rfl⟩

theorem Disturbs.unlinkM (x : ℤ) : Disturbs c K n (m.unlinkM x) :=
  h.trans ⟨.frame rfl, fun _ => id, fun _ => id,
    fun _ => (List.filter_sublist).count_le c, fun _ => id, id, fun _ _ => .inl rfl⟩

theorem Disturbs.unlinkU (x : ℤ) : Disturbs c K n (m.unlinkU x) :=
  h.trans ⟨.frame rfl, fun _ => id, fun _ => id, fun _ => le_rfl,
    fun _ hq => (List.mem_filter.mp hq).1, id, fun _ _ => .inl rfl⟩

theorem Disturbs.addTail (hx : x ≠ c) (d : ℤ) : Disturbs c K n (m.addTail x d) := by
  have hcore : ((m.addTail x d).proc c).core = (m.proc c).core :=
    modProc_field d c Proc.core fun _ => rfl
  have hmlist : ∀ q, ((m.addTail x d).proc q).mlist = (m.proc q).mlist := fun q =>
    modProc_field d q Proc.mlist fun _ => rfl
  have hulist : ∀ q, ((m.addTail x d).proc q).ulist = (m.proc q).ulist := fun q =>
    modProc_field d q Proc.ulist fun _ => rfl
  have hbit : ((m.addTail x d).proc c).rts.waitmigr = (m.proc c).rts.waitmigr :=
    modProc_field d c (fun p => p.rts.waitmigr) fun _ => rfl
  refine h.trans ⟨.frame hcore, fun q hq => ?_, fun _ => id, fun q => by rw [hmlist q],
    fun q => by rw [hulist q]; exact id, hbit.symm.trans, fun _ _ => .inl hbit⟩
  · unfold Node.addTail at hq
    rw [modProc_proc] at hq
    split at hq
    · rename_i hqd
      rw [hqd]
      refine (List.mem_append.mp hq).resolve_right fun hin => hx ?_
      exact (List.mem_singleton.mp hin).symm
    · exact hq

theorem Disturbs.addWaiter (hx : x ≠ c) (d : ℤ) :
    Disturbs c K n (m.modProc d fun p => { p with mlist := p.mlist ++ [x] }) := by
  generalize hu : (m.modProc d fun p => { p with mlist := p.mlist ++ [x] }) = u
  have hcore : (u.proc c).core = (m.proc c).core := by
    rw [← hu]
    exact modProc_field d c Proc.core fun _ => rfl
  have hlist : ∀ q, (u.proc q).list = (m.proc q).list := fun q => by
    rw [← hu]
    exact modProc_field d q Proc.list fun _ => rfl
  have hulist : ∀ q, (u.proc q).ulist = (m.proc q).ulist := fun q => by
    rw [← hu]
    exact modProc_field d q Proc.ulist fun _ => rfl
  have hproxy : u.sproxy = m.sproxy := by rw [← hu]; rfl
  have hbit : (u.proc c).rts.waitmigr = (m.proc c).rts.waitmigr := by
    rw [← hu]
    exact modProc_field d c (fun p => p.rts.waitmigr) fun _ => rfl
  refine h.trans ⟨.frame hcore, fun q => by rw [hlist q]; exact id,
    fun px => by rw [hproxy]; exact id, fun q => ?_, fun q => by rw [hulist q]; exact id,
    hbit.symm.trans, fun _ _ => .inl hbit⟩
  rw [← hu, modProc_proc]
  split
  · rename_i hqd
    rw [hqd, List.count_append, List.count_singleton, if_neg (by simpa using hx)]
    exact le_rfl
  · exact le_rfl

theorem Disturbs.enqueue (hx : x ≠ c) : Disturbs c K n (m.sproxyEnqueue x).1 := by
  have hfield : ∀ {α : Type} (g : Proc → α), (∀ p px, g { p with proxy := px } = g p) → ∀ q,
      g ((m.sproxyEnqueue x).1.proc q) = g (m.proc q) := fun g hg q => sproxyEnqueue_field g hg q
  have hbit : ((m.sproxyEnqueue x).1.proc c).rts.waitmigr = (m.proc c).rts.waitmigr :=
    hfield (fun p => p.rts.waitmigr) (fun _ _ => rfl) c
  refine h.trans ⟨.frame (hfield Proc.core (fun _ _ => rfl) c), fun q => ?_, fun px hq => ?_,
    fun q => ?_, fun q => ?_, hbit.symm.trans, fun _ _ => .inl hbit⟩
  · rw [hfield Proc.list fun _ _ => rfl]
    exact id
  · by_cases hfree : (m.sproxy (m.conf.nProxies (m.proc x).rmtcmd.dnode)).rts = Rts.onlyFree
    · rwa [sproxyEnqueue_of_free m x hfree] at hq
    · rw [sproxyEnqueue_list hfree] at hq
      split at hq
      · refine (List.mem_append.mp hq).resolve_right fun hin => hx ?_
        exact (List.mem_singleton.mp hin).symm
      · exact hq
  · rw [hfield Proc.mlist fun _ _ => rfl]
  · rw [hfield Proc.ulist fun _ _ => rfl]
    exact id

theorem Disturbs.ask (hx : x ≠ c) (hl : ∀ p, (f p).heads = p.heads) :
    Disturbs c K n ((m.modProc x f).sproxyEnqueue x).1 := (h.other hx hl).enqueue hx

theorem Disturbs.genericAck (hx : x ≠ c) (ack : Cmd) (lcl code : ℤ) :
    Disturbs c K n (m.genericAckLcl2rmt ack x lcl code).1 := h.ask hx fun _ => by rfl

theorem Disturbs.errorAck (hx : x ≠ c) (ack : Cmd) (hdr : Hdr) (code : ℤ) :
    Disturbs c K n (m.errorLcl2rmt ack x hdr code).1 := h.ask hx fun _ => by rfl

theorem Disturbs.clearOncopy (i : ℤ) : Disturbs c K n (m.clearOncopy i) :=
  h.frame i fun _ => by rfl

end

end Basic

/-! ### Calls and copies of others -/

section Edits

variable {a : Actor} {A : Set (ℤ × Kind)} {c q timeout cp : ℤ} {n n' : Node} {r : Node × Next}
  {op : Op}

theorem Edits.disturbs (h : Edits a A n n') (ha : c ∉ a.who) (hs : c ∉ a.spoils)
    (hc : (n.proc c).rts.remote = false) : Disturbs c { k | (c, k) ∈ A } n n' := by
  have hne : ∀ {x : ℤ}, x ∈ a.who → x ≠ c := fun hx h => ha (h ▸ hx)
  induction h with
  | refl n => exact .refl n
  | @mod A n m _ i f hf hi ih =>
    have hlinks := fun p => Proc.links_of_outer (hf p)
    have hheads := fun p => Proc.heads_of_outer (hf p)
    cases hi with
    | own hi => exact (ih hc).other (hne hi) hheads
    | spoil hi => exact (ih hc).other (fun h => hs (h ▸ hi)) hheads
    | remote hr => exact (ih hc).other (ne_of_remote ((ih hc).isLocal hc) hr) hheads
    | chg hd hk =>
      refine (ih hc).modProc i hlinks fun hic => ?_
      subst hic
      exact .single ⟨_, hd, hk⟩
  | @around A n m v i k f g _ hf hg _ hi hq hd hk ih ihv =>
    have hlf := fun p => Proc.links_of_outer (hf p)
    have hlg := fun p => Proc.links_of_outer (hg p)
    have hlocal : ((m.modProc i f).proc c).rts.remote = false := by
      have hside : ∀ p, (f p).rts.remote = p.rts.remote := fun p =>
        congrArg (fun o => o.2.1.2) (hf p)
      exact (modProc_field i c (·.rts.remote) hside).trans ((ih hc).isLocal hc)
    refine (ih hc).trans ((ihv hlocal).between (fun q => modProc_field i q Proc.links hlf) rfl
      (fun q => modProc_field i q Proc.links hlg) rfl ?_)
    by_cases hic : i = c
    · subst hic
      rw [modProc_same, hq i hi, modProc_same]
      exact .single ⟨k, hd, hk⟩
    · rw [modProc_of_ne _ _ (Ne.symm hic), hq c ha, modProc_of_ne _ _ (Ne.symm hic)]
  | unlink _ x ih => exact (ih hc).unlink x
  | link _ hx d ih => exact (ih hc).addTail (hne hx) d
  | @ask A n m x cmd f _ hx _ hf ih =>
    refine (ih hc).ask ?_ fun p => (Proc.heads_of_outer (hf p)).trans rfl
    rcases hx with ⟨hx, -⟩ | ⟨hr, -⟩
    · exact hne hx
    · exact ne_of_remote ((ih hc).isLocal hc) hr
  | wait _ _ hx d hf ih =>
    exact ((ih hc).other (hne hx) fun p => (Proc.heads_of_outer (hf p)).trans rfl).addWaiter
      (hne hx) d
  | init _ _ hx _ dcid ih => exact (ih hc).init (hne hx) dcid

theorem Part.disturbs (h : Part q op A n r) (hq : q ≠ c) (hc : (n.proc c).rts.remote = false) :
    Disturbs c { k | (c, k) ∈ A } n r.1 := by
  have hdist : ∀ {m : Node}, Edits (.call q) A n m → Disturbs c { k | (c, k) ∈ A } n m := fun h =>
    h.disturbs (fun h => hq h.symm) nofun hc
  cases h with
  | done h | sleeps h => exact hdist h
  | waits h =>
    exact ((hdist h).other hq fun _ => by rfl).addWaiter hq _

theorem disturbs_call {msg : Message} (hq : q ≠ c) (hc : (n.proc c).rts.remote = false)
    (h : n.call q op msg timeout cp = some r) : Disturbs c (op.aims c cp (n.heeds c q op)) n r.1 :=
  (part_call h).disturbs hq hc

theorem disturbs_wake {wait : Wait} {w : ℤ} (hq : q ≠ c) (hc : (n.proc c).rts.remote = false)
    (h : n.wake q op wait timeout w cp = some r) :
    Disturbs c (op.aims c cp (n.heeds c q op)) n r.1 := by
  rcases part_wake h with ⟨m, hm, rfl⟩ | hp
  · exact hm.disturbs (fun h => hq h.symm) nofun hc
  · exact hp.disturbs hq hc

theorem disturbs_vcopyStart {srcEp dstEp bytes : ℤ} {saddr daddr : ℕ} {cp : ℕ → ℤ}
    {r : Node × VcopyNext} (hq : q ≠ c) (hc : (n.proc c).rts.remote = false)
    (h : n.vcopyStart q srcEp saddr dstEp daddr bytes cp = some r) :
    Disturbs c ((n.vcopyArgs q srcEp saddr dstEp daddr bytes).aims c) n r.1 :=
  (edits_vcopyStart h).disturbs (fun h => hq h.symm) nofun hc

theorem disturbs_vcopyWake (hq : q ≠ c) (hc : (n.proc c).rts.remote = false) (next : VcopyNext)
    (w : ℤ) (cp : ℕ → ℤ) : Disturbs c (next.aims c) n (n.vcopyWake q next w cp).1 :=
  (edits_vcopyWake next w cp).disturbs (fun h => hq h.symm) nofun hc

end Edits

end Node

end MolIpc
