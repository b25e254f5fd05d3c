import MolIpc.Ipc.Calls

/-!
Copies of a third process. A process `c` copies between two others, `s` and `d`, and sleeps while
the chunks are under way; meanwhile the other processes of the node go on, and may complete what
`s` and `d` sleep for. As the two are marked with `BIT_ONCOPY`, nobody wakes them up: `mm_vcopy`
does so at its end, with the result of the copy.

The run is compared with one in which the same processes do the same and there is no copy. All
along, the two differ in what the copy uses of the descriptors (`Proc.veil`) and in the wake-ups
that are put off (`Proc.Deferred`); at the end only in the result codes.
-/

namespace MolIpc

variable {p p' : Proc} {g : Proc → Proc}

/-! ### What a copy uses of a descriptor -/

structure Veil where
  oncopy : Bool
  rmtoper : Bool
  rcode : ℤ
  pseudosem : ℤ
  rmtcmd : Hdr
  proxy : ℤ
  mem : Mem

namespace Proc

def veiled (p : Proc) : Veil :=
  ⟨p.rts.oncopy, p.rts.rmtoper, p.rcode, p.pseudosem, p.rmtcmd, p.proxy, p.mem⟩

def veil (p : Proc) (a : Veil) : Proc :=
  { p with
    rts := { p.rts with oncopy := a.oncopy, rmtoper := a.rmtoper }
    rcode := a.rcode, pseudosem := a.pseudosem, rmtcmd := a.rmtcmd, proxy := a.proxy
    mem := a.mem }

@[simp] theorem veil_veiled (p : Proc) : p.veil p.veiled = p := rfl

@[simp] theorem veiled_veil (p : Proc) (a : Veil) : (p.veil a).veiled = a := rfl

@[simp] theorem veil_veil (p : Proc) (a b : Veil) : (p.veil a).veil b = p.veil b := rfl

def Alike (p p' : Proc) : Prop := ∃ a, p = p'.veil a

/-- A change of a descriptor that has nothing to do with those fields. -/
def Transparent (g : Proc → Proc) : Prop := ∀ p a, g (p.veil a) = (g p).veil a

theorem Transparent.veiled_eq (hg : Transparent g) (p : Proc) : (g p).veiled = p.veiled := by
  have h := hg p p.veiled
  rw [veil_veiled] at h
  rw [h, veiled_veil]

theorem Alike.waitsFor (h : p.Alike p') (ep : ℤ) : p.waitsFor ep ↔ p'.waitsFor ep := by
  obtain ⟨a, rfl⟩ := h
  exact Iff.rfl

/-- A party `p` of the copy, and `p'` as it is without the copy: if its operation has completed, its
wake-up is put off. -/
structure Deferred (p p' : Proc) : Prop where
  eq : p = p'.veil { p'.veiled with
    oncopy := true, rcode := p.rcode, pseudosem := p.pseudosem, mem := p.mem }
  clear : p'.rts.oncopy = false
  woken : p'.rts = Rts.running → p'.pseudosem = p.pseudosem + 1
  asleep : p'.rts ≠ Rts.running → p'.pseudosem = p.pseudosem ∧ p'.rcode = p.rcode

structure Requests (p p' : Proc) : Prop where
  alike : p.Alike p'
  receiving : p'.rts.receiving = false
  sending : p'.rts.sending = false

theorem Deferred.alike (h : Deferred p p') : p.Alike p' := ⟨_, h.eq⟩

theorem Deferred.quiet (h : Deferred p p') (hg : Transparent g) (hr : ∀ p, (g p).rts = p.rts) :
    Deferred (g p) (g p') := by
  have hv := hg.veiled_eq p
  have hv' := hg.veiled_eq p'
  have hsem : (g p').pseudosem = p'.pseudosem := congrArg Veil.pseudosem hv'
  have hsem' : (g p).pseudosem = p.pseudosem := congrArg Veil.pseudosem hv
  have hcode : (g p').rcode = p'.rcode := congrArg Veil.rcode hv'
  have hcode' : (g p).rcode = p.rcode := congrArg Veil.rcode hv
  have hmem : (g p).mem = p.mem := congrArg Veil.mem hv
  refine ⟨?_, by rw [hr]; exact h.clear, ?_, ?_⟩
  · rw [hsem', hcode', hmem, hv', ← hg, ← h.eq]
  · rw [hr, hsem, hsem']
    exact h.woken
  · rw [hr, hsem, hsem', hcode, hcode']
    exact h.asleep

theorem Deferred.finish (h : Deferred p p') (hg : Transparent g) (hwait : p'.rts ≠ Rts.running)
    (code : ℤ) : Deferred ((g p).upIfReady code) ((g p').upIfReady code) := by
  have hv := hg.veiled_eq p
  have hv' := hg.veiled_eq p'
  obtain ⟨hsem, hcode⟩ := h.asleep hwait
  have hgp : g p = (g p').veil { (g p').veiled with
      oncopy := true, rcode := p.rcode, pseudosem := p.pseudosem, mem := p.mem } := by
    rw [hv', ← hg, ← h.eq]
  have honcopy : (g p).rts.oncopy = true := by rw [hgp]; rfl
  have hstay : (g p).upIfReady code = g p := by
    refine if_neg fun hrun => ?_
    rw [hrun] at honcopy
    exact nomatch honcopy
  have hsem' : (g p').pseudosem = p'.pseudosem := congrArg Veil.pseudosem hv'
  have hcode' : (g p').rcode = p'.rcode := congrArg Veil.rcode hv'
  have hclear : (g p').rts.oncopy = false := (congrArg Veil.oncopy hv').trans h.clear
  rw [hstay, hgp]
  by_cases hrun : (g p').rts = Rts.running
  · have hup : (g p').upIfReady code = (g p').up code := if_pos hrun
    rw [hup]
    refine ⟨rfl, hclear, fun _ => ?_, fun h => absurd hrun h⟩
    show (g p').pseudosem + 1 = p.pseudosem + 1
    rw [hsem', hsem]
  · have hup : (g p').upIfReady code = g p' := if_neg hrun
    rw [hup]
    exact ⟨rfl, hclear, fun h => absurd h hrun, fun _ => ⟨hsem'.trans hsem, hcode'.trans hcode⟩⟩

theorem Requests.quiet (h : Requests p p') (hg : Transparent g) (hr : ∀ p, (g p).rts = p.rts) :
    Requests (g p) (g p') := by
  obtain ⟨a, ha⟩ := h.alike
  refine ⟨⟨a, by rw [ha, hg]⟩, ?_, ?_⟩ <;> rw [hr]
  exacts [h.receiving, h.sending]

end Proc

/-! ### Two runs side by side -/

structure ThirdParty where
  c : ℤ
  v : VcopyCall
  src_ne : v.srcNr ≠ c
  dst_ne : v.dstNr ≠ c
  parties_ne : v.srcNr ≠ v.dstNr

namespace ThirdParty

variable (C : ThirdParty) {q : ℤ} {op : Op} {n : Node} {f : Proc → Proc}

def Party (q : ℤ) : Prop := q = C.v.srcNr ∨ q = C.v.dstNr

instance (q : ℤ) : Decidable (C.Party q) :=
  inferInstanceAs (Decidable (q = C.v.srcNr ∨ q = C.v.dstNr))

def Outside (x : ℤ) : Prop := x ≠ C.c ∧ ¬ C.Party x

def Rel (q : ℤ) (p p' : Proc) : Prop :=
  if q = C.c then p.Requests p' else if C.Party q then p.Deferred p' else p = p'

theorem Rel.alike {C : ThirdParty} (h : C.Rel q p p') : p.Alike p' := by
  unfold Rel at h
  split_ifs at h
  exacts [h.alike, h.alike, ⟨p.veiled, by rw [← h, Proc.veil_veiled]⟩]

theorem Rel.quiet {C : ThirdParty} (h : C.Rel q p p') (g : Proc → Proc) (hg : Proc.Transparent g)
    (hr : ∀ p, (g p).rts = p.rts) : C.Rel q (g p) (g p') := by
  unfold Rel at h ⊢
  split_ifs at h ⊢
  exacts [h.quiet hg hr, h.quiet hg hr, congrArg g h]

theorem Rel.finish {C : ThirdParty} (h : C.Rel q p p') (hg : Proc.Transparent g)
    (hwait : p'.rts.receiving = true ∨ p'.rts.sending = true) (code : ℤ) :
    C.Rel q ((g p).upIfReady code) ((g p').upIfReady code) := by
  have hne : p'.rts ≠ Rts.running := by
    intro hrun
    rw [hrun] at hwait
    exact hwait.elim nofun nofun
  unfold Rel at h ⊢
  split_ifs at h ⊢
  · rw [h.receiving, h.sending] at hwait
    exact hwait.elim nofun nofun
  · exact h.finish hg hne code
  · rw [h]

/-- The node with the copy and without. The sender proxies are those of the copy. -/
structure Alongside (N M : Node) : Prop where
  conf : N.conf = M.conf
  rproxy : N.rproxy = M.rproxy
  proc (q : ℤ) : C.Rel q (N.proc q) (M.proc q)

variable {C} {N M : Node} {x : ℤ}

namespace Alongside

section

variable (h : C.Alongside N M)

include h

theorem self (hx : C.Outside x) : N.proc x = M.proc x := by
  have hrel := h.proc x
  unfold Rel at hrel
  rwa [if_neg hx.1, if_neg hx.2] at hrel

theorem modProc (hf : C.Rel q (f (N.proc q)) (g (M.proc q))) :
    C.Alongside (N.modProc q f) (M.modProc q g) := by
  refine ⟨h.conf, h.rproxy, fun j => ?_⟩
  by_cases hj : j = q
  · subst hj
    simpa using hf
  · simpa [hj] using h.proc j

theorem own (hx : C.Outside x) (f : Proc → Proc) : C.Alongside (N.modProc x f) (M.modProc x f) := by
  refine h.modProc ?_
  unfold Rel
  rw [if_neg hx.1, if_neg hx.2, h.self hx]

theorem quiet (q : ℤ) (g : Proc → Proc) (hg : Proc.Transparent g) (hr : ∀ p, (g p).rts = p.rts) :
    C.Alongside (N.modProc q g) (M.modProc q g) :=
  h.modProc ((h.proc q).quiet g hg hr)

theorem finish (g : Proc → Proc) (hg : Proc.Transparent g)
    (hwait : (M.proc q).rts.receiving = true ∨ (M.proc q).rts.sending = true) (code : ℤ) :
    C.Alongside (N.modProc q fun p => (g p).upIfReady code)
      (M.modProc q fun p => (g p).upIfReady code) :=
  h.modProc ((h.proc q).finish hg hwait code)

theorem addTail (x q : ℤ) : C.Alongside (N.addTail x q) (M.addTail x q) :=
  h.quiet q _ (fun _ _ => rfl) fun _ => rfl

theorem unlink (x : ℤ) : C.Alongside (N.unlink x) (M.unlink x) :=
  ⟨h.conf, h.rproxy, fun q =>
    (h.proc q).quiet (fun p => { p with list := p.list.filter (· ≠ x) }) (fun _ _ => rfl)
      fun _ => rfl⟩

/-! What the calls read. -/

theorem waitsFor (q ep : ℤ) :
    (N.proc q).waitsFor ep ↔ (M.proc q).waitsFor ep := (h.proc q).alike.waitsFor ep

theorem dcCheck : N.dcCheck = M.dcCheck := by
  unfold Node.dcCheck
  rw [h.conf]

theorem sendEntry (hx : C.Outside x) (ep : ℤ) : N.sendEntry x ep = M.sendEntry x ep := by
  unfold Node.sendEntry
  rw [h.dcCheck, h.conf, h.self hx]

theorem sendDst (ep died : ℤ) : N.sendDst ep died = M.sendDst ep died := by
  obtain ⟨a, ha⟩ := (h.proc (endpointP ep)).alike
  unfold Node.sendDst
  rw [h.conf, ha]
  rfl

theorem notifyDst (ep : ℤ) : N.notifyDst ep = M.notifyDst ep := by
  obtain ⟨a, ha⟩ := (h.proc (endpointP ep)).alike
  unfold Node.notifyDst
  rw [h.conf, ha]
  rfl

theorem sentBy (q : ℤ) : N.sentBy q = M.sentBy q := by
  obtain ⟨a, ha⟩ := (h.proc q).alike
  unfold Node.sentBy
  rw [ha]
  rfl

theorem receiveEntry (hx : C.Outside x) (src : ℤ) :
    N.receiveEntry x src = M.receiveEntry x src := by
  obtain ⟨a, ha⟩ := (h.proc (endpointP src)).alike
  unfold Node.receiveEntry Node.rproxyCheck
  rw [h.dcCheck, h.self hx, h.conf, h.rproxy, ha]
  rfl

theorem pendingBit (hx : C.Outside x) : N.pendingBit x = M.pendingBit x := by
  unfold Node.pendingBit
  rw [h.self hx, h.conf]

theorem endpoint (q : ℤ) : (N.proc q).endpoint = (M.proc q).endpoint := by
  obtain ⟨a, ha⟩ := (h.proc q).alike
  rw [ha]
  rfl

theorem remote (q : ℤ) : (N.proc q).rts.remote = (M.proc q).rts.remote := by
  obtain ⟨a, ha⟩ := (h.proc q).alike
  rw [ha]
  rfl

theorem sId (q : ℤ) : (N.proc q).sId = (M.proc q).sId := by
  obtain ⟨a, ha⟩ := (h.proc q).alike
  rw [ha]
  rfl

theorem notifyPending (q : ℤ) : (N.proc q).notifyPending = (M.proc q).notifyPending := by
  obtain ⟨a, ha⟩ := (h.proc q).alike
  rw [ha]
  rfl

theorem firstSender (hx : C.Outside x) (src : ℤ) : N.firstSender x src = M.firstSender x src := by
  unfold Node.firstSender
  simp only [h.self hx, h.endpoint]

theorem senderCheck (hx : C.Outside x) (z : ℤ) : N.senderCheck x z = M.senderCheck x z := by
  obtain ⟨a, ha⟩ := (h.proc z).alike
  unfold Node.senderCheck
  rw [h.self hx, ha]
  rfl

theorem notifySource (x srcNr : ℤ) : N.notifySource x srcNr = M.notifySource x srcNr := by
  unfold Node.notifySource
  rw [h.endpoint, h.endpoint]

end

end Alongside

/-! ### The operations of the others -/

def Sim (C : ThirdParty) (r r' : Node × Next) : Prop := C.Alongside r.1 r'.1 ∧ r.2 = r'.2

theorem ite_rel {α β : Type} {R : α → β → Prop} {p : Prop} [Decidable p] {r t : α} {r' t' : β}
    (hp : p → R r r') (hn : ¬ p → R t t') : R (if p then r else t) (if p then r' else t') := by
  by_cases h : p
  · rw [if_pos h, if_pos h]
    exact hp h
  · rw [if_neg h, if_neg h]
    exact hn h

section Calls

variable (h : C.Alongside N M) (hx : C.Outside x) {dst z : ℤ}

include h

theorem sim_ret (next : Next) : C.Sim (N, next) (M, next) := ⟨h, rfl⟩

include hx

theorem sim_sleepOr (timeout : ℤ) (next : Next) {k k' : Node → ℤ → Node × Next}
    (hk : ∀ N M code, C.Alongside N M → C.Sim (k N code) (k' M code)) :
    C.Sim (N.sleepOr x timeout next k) (M.sleepOr x timeout next k') := by
  unfold Node.sleepOr
  split
  · exact hk _ _ _ (h.own hx _)
  · exact ⟨h.own hx _, rfl⟩

theorem alongside_leaveQueue : C.Alongside (N.leaveQueue x) (M.leaveQueue x) := by
  unfold Node.leaveQueue
  rw [h.self hx]
  refine Alongside.own ?_ hx _
  split
  exacts [h.unlink x, h]

theorem alongside_leaveProxy : C.Alongside (N.leaveProxy x) (M.leaveProxy x) := by
  unfold Node.leaveProxy
  rw [h.self hx]
  refine Alongside.own ?_ hx _
  split
  exacts [h.unlink x, h]

omit h hx in
theorem leaveQueue_remote (n : Node) (x q : ℤ) :
    ((n.leaveQueue x).proc q).rts.remote = (n.proc q).rts.remote := by
  unfold Node.leaveQueue
  refine (Node.modProc_field x q (fun p => p.rts.remote) ?_).trans ?_
  · exact fun _ => rfl
  · split <;> rfl

omit h hx in
theorem leaveProxy_remote (n : Node) (x q : ℤ) :
    ((n.leaveProxy x).proc q).rts.remote = (n.proc q).rts.remote := by
  unfold Node.leaveProxy
  refine (Node.modProc_field x q (fun p => p.rts.remote) ?_).trans ?_
  · exact fun _ => rfl
  · split <;> rfl

theorem sim_waitMigr (ep timeout : ℤ) (op : Op) :
    Option.Rel C.Sim (N.waitMigr x ep timeout op) (M.waitMigr x ep timeout op) := by
  unfold Node.waitMigr
  split
  · exact .none
  · refine .some (sim_ret ((h.own hx _).quiet _ _ ?_ ?_) _)
    exacts [fun _ _ => rfl, fun _ => rfl]

/-! Deliveries. -/

omit hx in
theorem alongside_deliver (hw : (M.proc q).rts.receiving = true) (m : Message) :
    C.Alongside (N.modProc q fun p => p.deliver m) (M.modProc q fun p => p.deliver m) :=
  h.finish (fun p => Proc.endReceive { p with ubuf := m }) (fun _ _ => rfl) (.inl hw) EMol.ok

omit h hx in
theorem transparent_buildNotify (self : Bool) (sEp sNr : ℤ) :
    Proc.Transparent fun p => p.buildNotify self sEp sNr := by
  intro p a
  unfold Proc.buildNotify
  split_ifs <;> rfl

omit hx in
theorem alongside_deliverNotify (hw : (M.proc q).rts.receiving = true) (self : Bool) (sEp sNr : ℤ) :
    C.Alongside (N.modProc q (·.deliverNotify self sEp sNr))
      (M.modProc q (·.deliverNotify self sEp sNr)) := by
  let g : Proc → Proc := fun p => Proc.endReceive { p with misc := { p.misc with notify := true } }
  refine h.finish (fun p => g (p.buildNotify self sEp sNr)) ?_ (.inl hw) EMol.ok
  intro p a
  exact congrArg g (transparent_buildNotify self sEp sNr p a)

theorem sim_sendLocal (dst timeout cp : ℤ) :
    C.Sim (N.sendLocal x dst timeout cp) (M.sendLocal x dst timeout cp) := by
  unfold Node.sendLocal
  rw [h.self hx, h.sentBy x]
  by_cases hw : (M.proc (endpointP dst)).waitsFor (M.proc x).endpoint
  · rw [if_pos hw, if_pos ((h.waitsFor _ _).2 hw)]
    split
    · exact sim_ret h _
    · exact sim_ret (alongside_deliver h hw.1 _) _
  · rw [if_neg hw, if_neg (mt (h.waitsFor _ _).1 hw)]
    refine sim_sleepOr ((h.own hx _).addTail _ _) hx _ _ fun N M code h => ?_
    exact ⟨alongside_leaveQueue h hx, rfl⟩

theorem sim_sendrecLocal (ep timeout cp : ℤ) :
    C.Sim (N.sendrecLocal x ep timeout cp) (M.sendrecLocal x ep timeout cp) := by
  unfold Node.sendrecLocal
  rw [h.self hx, h.sentBy x]
  by_cases hw : (M.proc (endpointP ep)).waitsFor (M.proc x).endpoint
  · rw [if_pos hw, if_pos ((h.waitsFor _ _).2 hw)]
    have hdel := h.finish (fun p =>
      Proc.endReceive { p with ubuf := if cp = 0 then M.sentBy x else p.ubuf }) (fun _ _ => rfl)
      (.inl hw.1) cp
    by_cases hcp : cp ≠ 0
    · rw [if_pos hcp, if_pos hcp]
      exact sim_ret (hdel.own hx _) _
    · rw [if_neg hcp, if_neg hcp]
      refine sim_sleepOr (hdel.own hx _) hx _ _ fun N M code h => ?_
      exact ⟨h.own hx _, rfl⟩
  · rw [if_neg hw, if_neg (mt (h.waitsFor _ _).1 hw)]
    refine sim_sleepOr ((h.own hx _).addTail _ _) hx _ _ fun N M code h => ?_
    exact ⟨(alongside_leaveQueue h hx).own hx _, rfl⟩

theorem sim_replyLocal (dst cp : ℤ) :
    C.Sim (N.replyLocal x dst cp) (M.replyLocal x dst cp) := by
  obtain ⟨a, ha⟩ := (h.proc (endpointP dst)).alike
  have hcond : ((N.proc (endpointP dst)).rts.receiving ∧ ¬ (N.proc (endpointP dst)).rts.sending ∧
      (N.proc (endpointP dst)).getfrom = (M.proc x).endpoint) ↔
      ((M.proc (endpointP dst)).rts.receiving ∧ ¬ (M.proc (endpointP dst)).rts.sending ∧
      (M.proc (endpointP dst)).getfrom = (M.proc x).endpoint) := by
    rw [ha]
    rfl
  unfold Node.replyLocal
  rw [h.self hx, h.sentBy x]
  by_cases hw : (M.proc (endpointP dst)).rts.receiving ∧ ¬ (M.proc (endpointP dst)).rts.sending ∧
      (M.proc (endpointP dst)).getfrom = (M.proc x).endpoint
  · rw [if_pos hw, if_pos (hcond.2 hw)]
    split
    · exact sim_ret h _
    · exact sim_ret (alongside_deliver h hw.1 _) _
  · rw [if_neg hw, if_neg (mt hcond.1 hw)]
    exact sim_ret h _

theorem sim_notifyLocal (srcNr dst upd : ℤ) :
    C.Sim (N.notifyLocal x srcNr dst upd) (M.notifyLocal x srcNr dst upd) := by
  unfold Node.notifyLocal
  rw [h.notifySource, h.conf, h.self hx]
  by_cases hw : (M.proc (endpointP dst)).waitsFor (M.notifySource x srcNr).2
  · rw [if_pos hw, if_pos ((h.waitsFor _ _).2 hw)]
    refine sim_ret (alongside_deliverNotify (h.own hx _) ?_ _ _ _) _
    have hkeep := M.modProc_field x (endpointP dst) (fun p => p.rts.receiving)
      (f := fun p => p.setUpdt upd) fun _ => rfl
    exact hkeep.trans hw.1
  rw [if_neg hw, if_neg (mt (h.waitsFor _ _).1 hw), h.sId]
  split
  · exact sim_ret h _
  · refine sim_ret ((h.quiet _ _ ?_ ?_).own hx _) _
    exacts [fun _ _ => rfl, fun _ => rfl]

theorem sim_notifyMigrating (dst : ℤ) :
    C.Sim (N.notifyMigrating x dst) (M.notifyMigrating x dst) := by
  unfold Node.notifyMigrating
  dsimp only
  rw [h.self hx, h.notifyPending]
  split
  · exact sim_ret h _
  · refine sim_ret (h.quiet _ _ ?_ ?_) _
    exacts [fun _ _ => rfl, fun _ => rfl]

omit hx in
theorem sim_hdwNotify (dst : ℤ) : C.Sim (N.hdwNotify dst) (M.hdwNotify dst) := by
  have hread : (N.proc (endpointP dst)).rts.slotFree = (M.proc (endpointP dst)).rts.slotFree ∧
      (N.proc (endpointP dst)).rts.migrate = (M.proc (endpointP dst)).rts.migrate ∧
      (N.proc (endpointP dst)).nodeid = (M.proc (endpointP dst)).nodeid := by
    obtain ⟨a, ha⟩ := (h.proc (endpointP dst)).alike
    rw [ha]
    exact ⟨rfl, rfl, rfl⟩
  unfold Node.hdwNotify
  simp only [h.dcCheck, h.conf, hread, h.remote, h.sId, h.notifyPending, h.waitsFor]
  iterate 9 refine ite_rel (fun _ => sim_ret h _) fun _ => ?_
  refine ite_rel (fun hw => sim_ret (alongside_deliverNotify h hw.1 _ _ _) _) fun _ => ?_
  refine sim_ret (h.quiet _ _ ?_ ?_) _
  exacts [fun _ _ => rfl, fun _ => rfl]

/-! The calls. -/

theorem alongside_stay (hf : ∀ p, (f p).rts = p.rts) (hl : (N.proc q).rts.remote = false) :
    C.Alongside (N.modProc x f) (M.modProc x f) ∧
      ((N.modProc x f).proc q).rts.remote = false ∧
      ((M.modProc x f).proc q).rts.remote = false := by
  have hkeep (n : Node) : ((n.modProc x f).proc q).rts = (n.proc q).rts :=
    n.modProc_field x q Proc.rts hf
  refine ⟨h.own hx f, ?_, ?_⟩
  · rw [hkeep, hl]
  · rw [hkeep, ← h.remote, hl]

theorem sim_sendReplay (hl : (N.proc (endpointP dst)).rts.remote = false) (timeout cp : ℤ) :
    Option.Rel C.Sim (N.sendReplay x dst timeout cp) (M.sendReplay x dst timeout cp) := by
  unfold Node.sendReplay
  rw [h.sendDst]
  split
  · exact .some (sim_ret h _)
  · exact sim_waitMigr h hx _ _ _
  · obtain ⟨h', hN, hM⟩ := alongside_stay h hx (f := fun p => { p with rcode := EMol.ok })
      (fun _ => rfl) hl
    dsimp only
    rw [hN, hM]
    exact .some (sim_sendLocal h' hx _ _ _)

theorem sim_sendrecReplay {ep : ℤ} (hl : (N.proc (endpointP ep)).rts.remote = false)
    (timeout cp : ℤ) :
    Option.Rel C.Sim (N.sendrecReplay x ep timeout cp) (M.sendrecReplay x ep timeout cp) := by
  unfold Node.sendrecReplay
  rw [h.sendDst]
  split
  · exact .some (sim_ret h _)
  · exact sim_waitMigr h hx _ _ _
  · obtain ⟨h', hN, hM⟩ := alongside_stay h hx
      (f := fun p => { p with rcode := EMol.ok, getfrom := ep }) (fun _ => rfl) hl
    dsimp only
    rw [hN, hM]
    exact .some (sim_sendrecLocal h' hx _ _ _)

theorem sim_replyReplay (hl : (N.proc (endpointP dst)).rts.remote = false) (timeout cp : ℤ) :
    Option.Rel C.Sim (N.replyReplay x dst timeout cp) (M.replyReplay x dst timeout cp) := by
  unfold Node.replyReplay
  rw [h.sendDst]
  split
  · exact .some (sim_ret h _)
  · exact sim_waitMigr h hx _ _ _
  · obtain ⟨h', hN, hM⟩ := alongside_stay h hx (f := fun p => { p with rcode := EMol.ok })
      (fun _ => rfl) hl
    dsimp only
    rw [hN, hM]
    exact .some (sim_replyLocal h' hx _ _)

theorem sim_notifyReplay (hl : (N.proc (endpointP dst)).rts.remote = false) (srcNr upd : ℤ) :
    C.Sim (N.notifyReplay x srcNr dst upd) (M.notifyReplay x srcNr dst upd) := by
  unfold Node.notifyReplay
  rw [h.notifyDst]
  split
  · exact sim_ret h _
  · exact sim_notifyMigrating h hx _
  · obtain ⟨h', hN, hM⟩ := alongside_stay h hx (f := fun p => { p with rcode := EMol.ok })
      (fun _ => rfl) hl
    dsimp only
    rw [hN, hM]
    exact sim_notifyLocal h' hx _ _ _

omit h hx in
theorem receiveFrom_of_local (hc : n.senderCheck x z = EMol.ok) (hl : (n.proc z).rts.remote = false)
    (cp : ℤ) :
    n.receiveFrom x z cp =
      ((if cp = 0 then (n.unlink z).modProc x fun p => { p with ubuf := (n.unlink z).sentBy z }
        else n.unlink z).modProc z fun p => p.endSend.upIfReady cp, .ret cp) := by
  have hl' : ((n.unlink z).proc z).rts.remote = false := hl
  unfold Node.receiveFrom
  rw [if_neg (not_not.2 hc), hl']
  dsimp only
  split
  · have hkeep : (((n.unlink z).modProc x fun p =>
        { p with ubuf := (n.unlink z).sentBy z }).proc z).rts = ((n.unlink z).proc z).rts :=
      (n.unlink z).modProc_field x z Proc.rts fun _ => rfl
    simp [hkeep, hl']
  · simp [hl']

theorem sim_receiveFrom (hl : (N.proc z).rts.remote = false) (cp : ℤ) :
    C.Sim (N.receiveFrom x z cp) (M.receiveFrom x z cp) := by
  have hu := h.unlink z
  by_cases hc : M.senderCheck x z = EMol.ok
  · have hsending : (M.proc z).rts.sending = true := by
      by_contra hno
      unfold Node.senderCheck at hc
      rw [if_pos hno] at hc
      split at hc <;> exact absurd hc (by decide)
    rw [receiveFrom_of_local ((h.senderCheck hx z).trans hc) hl,
      receiveFrom_of_local hc ((h.remote z).symm.trans hl), hu.sentBy]
    have hcopy : C.Alongside
        (if cp = 0 then (N.unlink z).modProc x fun p => { p with ubuf := (M.unlink z).sentBy z }
          else N.unlink z)
        (if cp = 0 then (M.unlink z).modProc x fun p => { p with ubuf := (M.unlink z).sentBy z }
          else M.unlink z) := by
      split
      exacts [hu.own hx _, hu]
    refine sim_ret (hcopy.finish Proc.endSend (fun _ _ => rfl) (.inr ?_) cp) _
    split
    · refine Eq.trans (Node.modProc_field x z (fun p => p.rts.sending) ?_) hsending
      exact fun _ => rfl
    · exact hsending
  · have hc' : N.senderCheck x z ≠ EMol.ok := by rwa [h.senderCheck hx]
    unfold Node.receiveFrom
    rw [if_pos hc, if_pos hc', h.senderCheck hx]
    exact sim_ret hu _

theorem sim_receivePending (id : ℕ) (cp : ℤ) :
    C.Sim (N.receivePending x id cp) (M.receivePending x id cp) := by
  unfold Node.receivePending
  rw [h.conf]
  split
  · exact sim_ret (h.own hx _) _
  · exact sim_ret ((h.own hx _).own hx _) _

theorem sim_receiveEnd (code cp : ℤ) : C.Sim (N.receiveEnd x code cp) (M.receiveEnd x code cp) := by
  unfold Node.receiveEnd
  rw [h.self hx]
  split
  · exact sim_ret ((h.own hx _).own hx _) _
  · exact sim_ret (h.own hx _) _

theorem sim_miniReceive (hl : ∀ z ∈ (N.proc x).list, (N.proc z).rts.remote = false)
    (src timeout cp : ℤ) :
    C.Sim (N.miniReceive x src timeout cp) (M.miniReceive x src timeout cp) := by
  unfold Node.miniReceive
  rw [h.receiveEntry hx, h.self hx, h.pendingBit hx, h.firstSender hx]
  split
  · exact sim_ret h _
  split
  · exact sim_ret (h.own hx _) _
  split
  · exact sim_receivePending h hx _ _
  split
  · rename_i z hz
    refine sim_receiveFrom h hx (hl z ?_) cp
    rw [h.self hx]
    exact List.mem_of_find?_eq_some hz
  · refine sim_sleepOr (h.own hx _) hx _ _ fun N M code h => ?_
    exact sim_receiveEnd h hx _ _

theorem sim_miniRcvrqst (hl : ∀ z ∈ (N.proc x).list, (N.proc z).rts.remote = false)
    (timeout cp : ℤ) :
    C.Sim (N.miniRcvrqst x timeout cp) (M.miniRcvrqst x timeout cp) := by
  unfold Node.miniRcvrqst
  rw [h.dcCheck, h.self hx]
  split
  · exact sim_ret h _
  split
  · exact sim_ret (h.own hx _) _
  split
  · rename_i z hz
    refine sim_receiveFrom h hx (hl z ?_) cp
    rw [h.self hx]
    exact List.mem_of_mem_head? hz
  · refine sim_sleepOr (h.own hx _) hx _ _ fun N M code h => ?_
    exact sim_ret (h.own hx _) _

end Calls

/-- The peers of an operation are on this node: its destination, or the senders in the queue that
it looks at. -/
def Near (n : Node) (queue : List ℤ) : Op → Prop
  | .send dst | .sendrec dst | .reply dst | .notify _ dst _ =>
    (n.proc (endpointP dst)).rts.remote = false
  | .receive _ | .rcvrqst => ∀ z ∈ queue, (n.proc z).rts.remote = false

theorem Near.of_remote {n' : Node} (hn : ∀ q, (n'.proc q).rts.remote = (n.proc q).rts.remote)
    (h : Near n [] op) : Near n' [] op := by
  cases op with
  | receive _ | rcvrqst => exact nofun
  | _ => exact (hn _).trans h

theorem wake_eq {c timeout w code cp : ℤ} {wait : Wait}
    (hcode : (n.proc c).sleepResult timeout w = code) :
    n.wake c op wait timeout w cp =
      if code ≠ EMol.ok ∧ timeout < 0 ∧ ((n.modProc c (Proc.roused code)).proc c).rts.oncopy then
        some (n.modProc c (Proc.roused code), .sleep op wait)
      else ((n.modProc c (Proc.roused code)).modProc c Proc.wakeMigr).resume c op wait timeout code
        cp := by
  subst hcode
  rfl

section Steps

variable (h : C.Alongside N M) (hx : C.Outside x)

include h hx

theorem sim_call (hl : Near N (N.proc x).list op) (m : Message) (timeout cp : ℤ) :
    Option.Rel C.Sim (N.call x op m timeout cp) (M.call x op m timeout cp) := by
  have hbuf (q : ℤ) (hq : (N.proc q).rts.remote = false) :=
    alongside_stay h hx (f := fun p => { p with ubuf := m }) (fun _ => rfl) hq
  cases op with
  | send dst =>
    unfold Node.call Node.miniSend
    dsimp only
    rw [h.sendEntry hx]
    refine ite_rel (fun _ => .some (sim_ret h _)) fun _ => ite_rel (fun _ => .none) fun _ => ?_
    exact sim_sendReplay (hbuf _ hl).1 hx (hbuf _ hl).2.1 _ _
  | sendrec ep =>
    unfold Node.call Node.miniSendrec
    dsimp only
    rw [h.sendEntry hx]
    refine ite_rel (fun _ => .some (sim_ret h _)) fun _ => ite_rel (fun _ => .none) fun _ => ?_
    exact sim_sendrecReplay (hbuf _ hl).1 hx (hbuf _ hl).2.1 _ _
  | reply dst =>
    unfold Node.call Node.miniReply
    dsimp only
    rw [h.sendEntry hx]
    refine ite_rel (fun _ => .some (sim_ret h _)) fun _ => ite_rel (fun _ => .none) fun _ => ?_
    exact sim_replyReplay (hbuf _ hl).1 hx (hbuf _ hl).2.1 _ _
  | receive src => exact .some (sim_miniReceive h hx hl _ _ _)
  | rcvrqst => exact .some (sim_miniRcvrqst h hx hl _ _)
  | notify srcNr dst upd =>
    unfold Node.call Node.miniNotify
    dsimp only
    rw [h.sendEntry hx, h.conf, h.self hx]
    refine ite_rel (fun _ => .some (sim_hdwNotify h _)) fun _ => ?_
    refine ite_rel (fun _ => .some (sim_ret h _)) fun _ => ?_
    refine ite_rel (fun _ => .some (sim_ret h _)) fun _ => ite_rel (fun _ => .none) fun _ => ?_
    exact .some (sim_notifyReplay h hx hl _ _)

theorem sim_resume (hl : Near N [] op) (wait : Wait) (timeout code cp : ℤ) :
    Option.Rel C.Sim (N.resume x op wait timeout code cp) (M.resume x op wait timeout code cp) := by
  have hq := alongside_leaveQueue h hx
  have hp := alongside_leaveProxy h hx
  have hqr (q : ℤ) := leaveQueue_remote N x q
  have hpr (q : ℤ) := leaveProxy_remote N x q
  have hend (q : ℤ) := fun n : Node => n.modProc_field x q (fun p => p.rts.remote)
    (f := Proc.endReceive) fun _ => rfl
  cases op with
  | send dst =>
    cases wait with
    | migr => exact sim_sendReplay h hx hl _ _
    | remote =>
      refine ite_rel (fun _ => .some (sim_ret h _)) fun _ => ?_
      refine ite_rel (fun _ => ?_) fun _ => .some (sim_ret hp _)
      exact sim_sendReplay hp hx ((hpr _).trans hl) _ _
    | queued =>
      refine ite_rel (fun _ => .some (sim_ret h _)) fun _ => ?_
      refine ite_rel (fun _ => ?_) fun _ => .some (sim_ret hq _)
      exact sim_sendReplay hq hx ((hqr _).trans hl) _ _
    | answer | message => exact .none
  | sendrec ep =>
    cases wait with
    | migr => exact sim_sendrecReplay h hx hl _ _
    | remote =>
      refine ite_rel (fun _ => .some (sim_ret h _)) fun _ => ?_
      refine ite_rel (fun _ => ?_) fun _ => .some (sim_ret (hp.own hx _) _)
      exact sim_sendrecReplay (hp.own hx _) hx (((hend _ _).trans (hpr _)).trans hl) _ _
    | queued =>
      refine ite_rel (fun _ => .some (sim_ret h _)) fun _ => ?_
      refine ite_rel (fun _ => ?_) fun _ => .some (sim_ret (hq.own hx _) _)
      exact sim_sendrecReplay (hq.own hx _) hx (((hend _ _).trans (hqr _)).trans hl) _ _
    | answer =>
      exact ite_rel (fun _ => .some (sim_ret h _)) fun _ => .some (sim_ret (h.own hx _) _)
    | message => exact .none
  | reply dst =>
    cases wait with
    | migr => exact sim_replyReplay h hx hl _ _
    | remote =>
      refine ite_rel (fun _ => .some (sim_ret h _)) fun _ => ?_
      refine ite_rel (fun _ => ?_) fun _ => .some (sim_ret hp _)
      exact sim_replyReplay hp hx ((hpr _).trans hl) _ _
    | _ => exact .none
  | receive src =>
    cases wait with
    | message => exact .some (sim_receiveEnd h hx _ _)
    | _ => exact .none
  | rcvrqst =>
    cases wait with
    | message => exact .some (sim_ret (h.own hx _) _)
    | _ => exact .none
  | notify srcNr dst upd =>
    cases wait with
    | remote =>
      refine ite_rel (fun _ => .some (sim_ret h _)) fun _ => ?_
      refine ite_rel (fun _ => .some ?_) fun _ => .some (sim_ret hp _)
      exact sim_notifyReplay hp hx ((hpr _).trans hl) _ _
    | _ => exact .none

theorem sim_wake (hl : Near N [] op) (wait : Wait) (timeout w cp : ℤ) :
    Option.Rel C.Sim (N.wake x op wait timeout w cp) (M.wake x op wait timeout w cp) := by
  have hcode : (N.proc x).sleepResult timeout w = (M.proc x).sleepResult timeout w := by
    rw [h.self hx]
  have h' := h.own hx (Proc.roused ((M.proc x).sleepResult timeout w))
  have hstay (q : ℤ) : (((N.modProc x (Proc.roused ((M.proc x).sleepResult timeout w))).modProc x
      Proc.wakeMigr).proc q).rts.remote = (N.proc q).rts.remote := by
    refine (Node.modProc_field x q (fun p => p.rts.remote) fun p => ?_).trans
      (Node.modProc_field x q (fun p => p.rts.remote) fun _ => rfl)
    unfold Proc.wakeMigr
    split <;> rfl
  rw [wake_eq hcode, wake_eq rfl, h'.self hx]
  refine ite_rel (fun _ => .some (sim_ret h' _)) fun _ => ?_
  exact sim_resume (h'.own hx _) hx (hl.of_remote hstay) _ _ _ _

end Steps

end ThirdParty

end MolIpc
