import MolIpc.Ipc.Migrate
import MolIpc.Ipc.Stale
import MolIpc.Proxy.Put2lcl
import Mathlib.Logic.Relation

/-!
What the calls and the handlers of commands do to a node, as a sequence of edits.

A call of a process, a copy and a command of another node change a node by a few kinds of edits:
a descriptor changes, is linked to a queue or taken off, or gets a command and is linked to a
sender proxy. The relation `Edits` says who may make which edit and why. The module goes through
the calls, the copies and the commands once. What any of them keeps is then a matter of the edits.
-/

namespace MolIpc

open Relation

/-! ### Changes of a descriptor -/

structure Core where
  endpoint : ℤ
  slotFree : Bool
  remote : Bool
  receiving : Bool
  sending : Bool
  notify : Bool
  getfrom : ℤ
  rcode : ℤ
  pseudosem : ℤ
  message : Message
  ubuf : Message

def Proc.core (p : Proc) : Core where
  endpoint := p.endpoint
  slotFree := p.rts.slotFree
  remote := p.rts.remote
  receiving := p.rts.receiving
  sending := p.rts.sending
  notify := p.misc.notify
  getfrom := p.getfrom
  rcode := p.rcode
  pseudosem := p.pseudosem
  message := p.message
  ubuf := p.ubuf

def Proc.heads (p : Proc) : List ℤ × List ℤ × List ℤ := (p.list, p.mlist, p.ulist)

def Proc.links (p : Proc) : (List ℤ × List ℤ × List ℤ) × Bool := (p.heads, p.rts.waitmigr)

/-- The commands that have a case in the switch of `mm_put2lcl`. -/
def Cmd.hasCase : Cmd → Bool
  | .none | .sndrecAck | .bad _ => false
  | _ => true

def Cmd.byRemote : Cmd → Bool
  | .sendAck | .copyinAck | .copyoutData | .copyinRqst | .copylclAck | .copyrmtAck => true
  | _ => false

def Proc.load (p : Proc) : Cmd × Bool := (p.rmtcmd.cmd, p.rts.remote)

/-- What a change of a sleeper's descriptor is good for: it may let the call fail, end a wait on a
queue, wake it up, deliver a message, a request, a notice or nothing in place of one; mark a notice,
have the call replayed, or give up its command, with an error or (`lost`) without one. -/
inductive Kind
  | calm
  | ready
  | message
  | request
  | notice
  | copied
  | failed
  | mark
  | replay
  | out
  | lost
  deriving DecidableEq, Repr

inductive Chg : Kind → Proc → Proc → Prop
  | frame (p p' : Proc) (h : p'.core = p.core) : Chg .calm p p'
  | error (p : Proc) (code : ℤ) (h : code < 0) : Chg .calm p (p.up code)
  | unsent (p p' : Proc) (h : p'.core = { p.core with sending := false }) : Chg .calm p p'
  | served (p : Proc) (code : ℤ) (h : p.rts.sending = true) :
    Chg .calm p (p.endSend.upIfReady code)
  | ready (p : Proc) (code : ℤ) : Chg .ready p (p.upIfReady code)
  | acked (p : Proc) (code : ℤ) (h : p.rts = Rts.onlyOncopy) : Chg .ready p (p.up code)
  | message (p : Proc) (m : Message) (h : p.waitsFor m.source) : Chg .message p (p.deliver m)
  | request (p : Proc) (m : Message) (h : p.waitsFor m.source) : Chg .request p (p.deliver m)
  | notice (p : Proc) (self : Bool) (ep nr : ℤ)
    (h : p.waitsFor (if self then hardwareNr else ep)) : Chg .notice p (p.deliverNotify self ep nr)
  | copied (p : Proc) (m : Message) (h : p.waitsFor m.source) : Chg .copied p (p.deliver m)
  | failed (p : Proc) (ep code : ℤ) (h : p.waitsFor ep) :
    Chg .failed p (p.endReceive.upIfReady code)
  | mark (p p' : Proc) (h : p'.core = { p.core with notify := true }) : Chg .mark p p'
  | replay (p : Proc) : Chg .replay p p.replay
  | dropped (p : Proc) (code : ℤ) (h : p.rts.remote = false) (hc : code < 0) :
    Chg .out p ({ p with rts := Rts.running }.up code)
  | lost (p : Proc) (code : ℤ) (h : p.rts.remote = false) :
    Chg .lost p ({ p with rts := Rts.running }.up code)

/-- Any number of changes that are calm or of a kind in `K`. -/
abbrev Chgs (K : Set Kind) : Proc → Proc → Prop :=
  ReflTransGen fun p p' => ∃ k, Chg k p p' ∧ (k = .calm ∨ k ∈ K)

def Proc.outer (p : Proc) : ((List ℤ × List ℤ × List ℤ) × Bool) × (Cmd × Bool) × Bool × Bool :=
  (p.links, p.load, p.rts.signaled, p.rts.slotFree)

section Outer

variable (p : Proc)

@[simp] theorem Proc.upIfReady_outer (code : ℤ) : (p.upIfReady code).outer = p.outer := by
  unfold upIfReady
  split <;> rfl

@[simp] theorem Proc.buildNotify_outer (self : Bool) (ep nr : ℤ) :
    (p.buildNotify self ep nr).outer = p.outer := by
  unfold buildNotify
  split_ifs <;> rfl

theorem Proc.buildNotify_frame (self : Bool) (ep nr : ℤ) :
    (p.buildNotify self ep nr).core =
      { p.core with message := (p.buildNotify self ep nr).message } := by
  unfold buildNotify
  split_ifs <;> rfl

@[simp] theorem Proc.deliver_outer (m : Message) : (p.deliver m).outer = p.outer :=
  upIfReady_outer _ _

@[simp] theorem Proc.deliverNotify_outer (self : Bool) (ep nr : ℤ) :
    (p.deliverNotify self ep nr).outer = p.outer := by
  rw [deliverNotify, upIfReady_outer]
  exact buildNotify_outer p self ep nr

@[simp] theorem Proc.wakeMigr_outer : p.wakeMigr.outer = p.outer := by
  unfold wakeMigr
  split <;> rfl

@[simp] theorem Proc.wakeMigr_core : p.wakeMigr.core = p.core := by
  unfold wakeMigr
  split <;> rfl

theorem Proc.wakeMigr_waitsFor (ep : ℤ) : p.wakeMigr.waitsFor ep = p.waitsFor ep := by
  unfold wakeMigr
  split <;> rfl

@[simp] theorem Proc.wakeMigr_endpoint : p.wakeMigr.endpoint = p.endpoint :=
  congrArg Core.endpoint p.wakeMigr_core

end Outer

/-! ### Edits -/

/-- Who makes the edits: its own descriptors, all on one side, those that it spoils, and whether it
runs a copy, in which it may wait for a migration and exit. -/
structure Actor where
  who : Set ℤ
  remote : Bool := false
  spoils : Set ℤ := ∅
  copier : Bool := false

def Actor.call (q : ℤ) : Actor where
  who := {q}

/-- The process `q` in a copy. -/
def Actor.copy (q : ℤ) : Actor where
  who := {q}
  copier := true

/-- Why a descriptor may change: it is the actor's own or spoiled, of another node, or the change is
one that a sleeper goes through, of a kind in `A`. -/
inductive Actor.May (a : Actor) (A : Set (ℤ × Kind)) (i : ℤ) (p p' : Proc) : Prop
  | own (h : i ∈ a.who)
  | spoil (h : i ∈ a.spoils)
  | remote (h : p.rts.remote = true)
  | chg {k : Kind} (h : Chg k p p') (hk : k = .calm ∨ (i, k) ∈ A)

namespace Node

/-- The edits from one node to another. A command goes to a sender proxy on a descriptor of the
actor's side, or on that of a remote process. -/
inductive Edits (a : Actor) : Set (ℤ × Kind) → Node → Node → Prop
  | refl {A : Set (ℤ × Kind)} (n : Node) : Edits a A n n
  | mod {A : Set (ℤ × Kind)} {n m : Node} (h : Edits a A n m) (i : ℤ) {f : Proc → Proc}
    (hf : ∀ p, (f p).outer = p.outer) (hi : a.May A i (m.proc i) (f (m.proc i))) :
    Edits a A n (m.modProc i f)
  | around {A : Set (ℤ × Kind)} {n m v : Node} {i : ℤ} {k : Kind} {f g : Proc → Proc}
    (h : Edits a A n m) (hf : ∀ p, (f p).outer = p.outer) (hg : ∀ p, (g p).outer = p.outer)
    (hv : Edits a ∅ (m.modProc i f) v) (hi : i ∉ a.who)
    (hq : ∀ q, q ∉ a.who → v.proc q = (m.modProc i f).proc q)
    (hc : Chg k (m.proc i) (g (f (m.proc i)))) (hk : k = .calm ∨ (i, k) ∈ A) :
    Edits a A n (v.modProc i g)
  | unlink {A : Set (ℤ × Kind)} {n m : Node} (h : Edits a A n m) (x : ℤ) : Edits a A n (m.unlink x)
  | link {A : Set (ℤ × Kind)} {n m : Node} {x : ℤ} (h : Edits a A n m) (hx : x ∈ a.who) (d : ℤ) :
    Edits a A n (m.addTail x d)
  | ask {A : Set (ℤ × Kind)} {n m : Node} {x : ℤ} {b : Cmd} {f : Proc → Proc} (h : Edits a A n m)
    (hx : x ∈ a.who ∧ b.byRemote = a.remote ∨
      (m.proc x).rts.remote = true ∧ b.byRemote = true)
    (hcase : b.hasCase = true)
    (hf : ∀ p, (f p).outer = { p with rmtcmd := { p.rmtcmd with cmd := b } }.outer) :
    Edits a A n ((m.modProc x f).sproxyEnqueue x).1
  | wait {A : Set (ℤ × Kind)} {n m : Node} {x : ℤ} {f : Proc → Proc} (h : Edits a A n m)
    (ha : a.copier = true) (hx : x ∈ a.who) (d : ℤ)
    (hf : ∀ p, (f p).outer = { p with rts := { p.rts with waitmigr := true } }.outer) :
    Edits a A n ((m.modProc x f).modProc d fun p => { p with mlist := p.mlist ++ [x] })
  | init {A : Set (ℤ × Kind)} {n m : Node} {x : ℤ} (h : Edits a A n m) (ha : a.copier = true)
    (hx : x ∈ a.who) (hs : (m.proc x).rts.signaled = true) (dcid : ℤ) :
    Edits a A n (m.modProc x (·.initDesc dcid))

section Basic

variable {a : Actor} {A : Set (ℤ × Kind)} {n m n' : Node} {x : ℤ} {f : Proc → Proc}

section

variable (h : Edits a A n m)

include h

theorem Edits.trans (h' : Edits a A m n') : Edits a A n n' := by
  induction h' with
  | refl => exact h
  | mod _ i hf hi ih => exact (ih h).mod i hf hi
  | around _ hf hg hv hi hq hc hk ih => exact (ih h).around hf hg hv hi hq hc hk
  | unlink _ x ih => exact (ih h).unlink x
  | link _ hx d ih => exact (ih h).link hx d
  | ask _ hx hcase hf ih => exact (ih h).ask hx hcase hf
  | wait _ ha hx d hf ih => exact (ih h).wait ha hx d hf
  | init _ ha hx hs dcid ih => exact (ih h).init ha hx hs dcid

theorem Edits.frame (i : ℤ) (hf : ∀ p, ((f p).outer, (f p).core) = (p.outer, p.core)) :
    Edits a A n (m.modProc i f) :=
  h.mod i (fun p => (Prod.mk.inj (hf p)).1) (.chg (.frame _ _ (Prod.mk.inj (hf _)).2) (.inl rfl))

theorem Edits.own (hx : x ∈ a.who) (hf : ∀ p, (f p).outer = p.outer) :
    Edits a A n (m.modProc x f) := h.mod x hf (.own hx)

theorem Edits.genericAck {ack : Cmd} (hx : x ∈ a.who ∧ ack.byRemote = a.remote ∨
      (m.proc x).rts.remote = true ∧ ack.byRemote = true) (hcase : ack.hasCase = true)
    (lcl code : ℤ) :
    Edits a A n (m.genericAckLcl2rmt ack x lcl code).1 := h.ask hx hcase fun _ => by rfl

theorem Edits.clearOncopy (i : ℤ) : Edits a A n (m.clearOncopy i) :=
  h.frame i fun _ => by rfl

theorem Edits.setOncopy (i : ℤ) : Edits a A n (m.setOncopy i) :=
  h.frame i fun _ => by rfl

end

end Basic

end Node

/-! ### Message calls -/

/-- What a message call is good for to the sleeper `c`; `cp` is the result of the user copy, and `w`
says that `c` waits for the source. -/
def Op.aims (c cp : ℤ) (w : Prop) : Op → Set Kind
  | .send dst | .reply dst => { k | endpointP dst = c ∧ k = .message }
  | .sendrec ep => { k | endpointP ep = c ∧ (cp = 0 ∧ k = .request ∨ cp ≠ 0 ∧ k = .failed) }
  | .notify _ dst _ => { k | endpointP dst = c ∧ w ∧ k = .notice }
  | .receive _ | .rcvrqst => ∅

def Op.reach (cp : ℤ) (w : ℤ → Prop) (op : Op) : Set (ℤ × Kind) :=
  { x | x.2 ∈ op.aims x.1 cp (w x.1) }

def Op.dst? : Op → Option ℤ
  | .send dst | .sendrec dst | .reply dst => some dst
  | _ => none

namespace Node

/-- The process `c` waits for a notification that `q` makes in the name of `srcNr`. -/
def heedsNotify (n : Node) (c q srcNr : ℤ) : Prop :=
  (n.proc c).waitsFor (n.notifySource q srcNr).2 ∨
    srcNr = hardwareNr ∧ (n.proc c).waitsFor hardwareNr

def heeds (n : Node) (c q : ℤ) : Op → Prop
  | .notify srcNr _ _ => n.heedsNotify c q srcNr
  | _ => True

/-- How a part of a call ends: with a result, a sleep on a queue, or a wait for the migration of its
destination. -/
inductive Part (q : ℤ) (op : Op) (A : Set (ℤ × Kind)) (n : Node) : Node × Next → Prop
  | done {m : Node} (h : Edits (.call q) A n m) (code : ℤ) : Part q op A n (m, .ret code)
  | sleeps {m : Node} {wait : Wait} (h : Edits (.call q) A n m) (hw : wait ≠ .migr) :
    Part q op A n (m, .sleep op wait)
  | waits {m : Node} {dst : ℤ} (h : Edits (.call q) A n m) (hop : op.dst? = some dst) :
    Part q op A n ((m.modProc q fun p =>
      { p with rts := { p.rts with waitmigr := true }, waitmigr := dst }.fallAsleep).modProc
        (endpointP dst) fun p => { p with mlist := p.mlist ++ [q] }, .sleep op .migr)

section Calls

variable {q c dst src ep timeout cp srcNr code : ℤ} {op : Op} {w : ℤ → Prop} {A : Set (ℤ × Kind)}
  {n m : Node} {f : Proc → Proc} {r : Node × Next} {wait : Wait}

theorem Part.of_edits (h : Edits (.call q) A n m) (hr : Part q op A m r) : Part q op A n r := by
  cases hr with
  | done h' code => exact .done (h.trans h') code
  | sleeps h' hw => exact .sleeps (h.trans h') hw
  | waits h' hop => exact .waits (h.trans h') hop

theorem Edits.self (h : Edits (.call q) A n m) (hf : ∀ p, (f p).outer = p.outer) :
    Edits (.call q) A n (m.modProc q f) := h.own rfl hf

theorem part_sleepOr {k : Node → ℤ → Node × Next} (h : Edits (.call q) A n m) (hw : wait ≠ .migr)
    (hk : ∀ u code, Edits (.call q) A n u → Part q op A n (k u code)) :
    Part q op A n (m.sleepOr q timeout (.sleep op wait) k) := by
  unfold sleepOr
  split
  · refine hk _ _ (h.self fun p => ?_)
    exact p.wakeMigr_outer
  · exact .sleeps (h.self fun _ => by rfl) hw

theorem part_waitMigr (hop : op.dst? = some dst) (h : n.waitMigr q dst timeout op = some r) :
    Part q op A n r := by
  unfold waitMigr at h
  split at h <;> cases h
  exact .waits (.refl n) hop

theorem Edits.askRemote {cmd : Cmd} (h : Edits (.call q) A n m) (hcase : cmd.hasCase = true)
    (hby : cmd.byRemote = false) (ep code : ℤ) (msg : Message) :
    Edits (.call q) A n (m.askRemote q cmd ep code msg) :=
  h.ask (.inl ⟨rfl, hby⟩) hcase fun _ => by rfl

theorem Edits.leaveProxy (h : Edits (.call q) A n m) : Edits (.call q) A n (m.leaveProxy q) := by
  unfold Node.leaveProxy
  split
  · exact (h.unlink q).self fun _ => by rfl
  · exact h.self fun _ => by rfl

theorem Edits.leaveQueue (h : Edits (.call q) A n m) : Edits (.call q) A n (m.leaveQueue q) := by
  unfold Node.leaveQueue
  split
  · exact (h.unlink q).self fun _ => by rfl
  · exact h.self fun _ => by rfl

theorem edits_stopRemote (hd : (n.proc c).rts.remote = true) :
    Edits (.call q) A n (n.stopRemote q c) := (Edits.refl n).mod c (fun _ => by rfl) (.remote hd)

theorem part_sendRemote (hd : (n.proc (endpointP dst)).rts.remote = true) :
    Part q (.send dst) A n (n.sendRemote q dst timeout cp) := by
  unfold sendRemote
  dsimp only
  split
  · exact .done (.refl n) _
  · exact part_sleepOr ((edits_stopRemote hd).askRemote rfl rfl _ _ _) (by decide)
      fun _ _ h => .done h.leaveProxy _

theorem part_replyRemote (hd : (n.proc (endpointP dst)).rts.remote = true) :
    Part q (.reply dst) A n (n.replyRemote q dst timeout cp) := by
  unfold replyRemote
  dsimp only
  split
  · exact .done (.refl n) _
  · exact part_sleepOr ((edits_stopRemote hd).askRemote rfl rfl _ _ _) (by decide)
      fun _ _ h => .done h.leaveProxy _

theorem part_sendrecRemote : Part q (.sendrec ep) A n (n.sendrecRemote q ep timeout cp) := by
  unfold sendrecRemote
  dsimp only
  split
  · exact .done (.refl n) _
  · exact part_sleepOr (((Edits.refl n).self fun _ => by rfl).askRemote rfl rfl _ _ _) (by decide)
      fun _ _ h => .done (h.leaveProxy.self fun _ => by rfl) _

theorem edits_deliver (hw : (n.proc (endpointP dst)).waitsFor (n.proc q).endpoint)
    (hA : (endpointP dst, .message) ∈ A) :
    Edits (.call q) A n (n.modProc (endpointP dst) fun p => p.deliver (n.sentBy q)) :=
  (Edits.refl n).mod _ (fun p => p.deliver_outer _) (.chg (.message _ (n.sentBy q) hw) (.inr hA))

theorem part_sendLocal :
    Part q (.send dst) (Op.reach cp w (.send dst)) n (n.sendLocal q dst timeout cp) := by
  unfold sendLocal
  dsimp only
  split
  · rename_i hw
    split
    · exact .done (.refl n) _
    · refine .done (edits_deliver hw ?_) _
      exact ⟨rfl, rfl⟩
  · exact part_sleepOr (((Edits.refl n).self fun _ => by rfl).link rfl _) (by decide)
      fun _ _ h => .done h.leaveQueue _

theorem part_replyLocal :
    Part q (.reply dst) (Op.reach cp w (.reply dst)) n (n.replyLocal q dst cp) := by
  unfold replyLocal
  dsimp only
  split
  · rename_i hw
    split
    · exact .done (.refl n) _
    · refine .done (edits_deliver ⟨hw.1, ?_, .inr hw.2.2⟩ ?_) _
      · simpa using hw.2.1
      · exact ⟨rfl, rfl⟩
  · exact .done (.refl n) _

theorem part_sendrecLocal :
    Part q (.sendrec ep) (Op.reach cp w (.sendrec ep)) n (n.sendrecLocal q ep timeout cp) := by
  unfold sendrecLocal
  dsimp only
  split
  · rename_i hw
    generalize hu : (n.modProc (endpointP ep) fun p =>
      ({ p with ubuf := if cp = 0 then n.sentBy q else p.ubuf }.endReceive).upIfReady cp) = u
    have hnu : Edits (.call q) (Op.reach cp w (.sendrec ep)) n u := by
      rw [← hu]
      refine (Edits.refl n).mod _ (fun p => ?_) ?_
      · exact Proc.upIfReady_outer _ _
      by_cases hcp : cp = 0
      · simp only [hcp, if_true]
        exact .chg (.request _ (n.sentBy q) hw) (.inr ⟨rfl, .inl ⟨rfl, rfl⟩⟩)
      · simp only [hcp, if_false]
        exact .chg (.failed _ _ cp hw) (.inr ⟨rfl, .inr ⟨hcp, rfl⟩⟩)
    split
    · exact .done (hnu.self fun _ => by rfl) _
    · exact part_sleepOr (hnu.self fun _ => by rfl) (by decide)
        fun _ _ h => .done (h.self fun _ => by rfl) _
  · exact part_sleepOr (((Edits.refl n).self fun _ => by rfl).link rfl _) (by decide)
      fun _ _ h => .done (h.leaveQueue.self fun _ => by rfl) _

theorem part_sendReplay (h : n.sendReplay q dst timeout cp = some r) :
    Part q (.send dst) (Op.reach cp w (.send dst)) n r := by
  unfold sendReplay at h
  split at h
  · cases h
    exact .done (.refl n) _
  · exact part_waitMigr rfl h
  · refine Part.of_edits ((Edits.refl n).self (f := fun p => { p with rcode := EMol.ok })
      fun _ => rfl) ?_
    dsimp only at h
    split at h <;> cases h
    · exact part_sendRemote ‹_›
    · exact part_sendLocal

theorem part_replyReplay (h : n.replyReplay q dst timeout cp = some r) :
    Part q (.reply dst) (Op.reach cp w (.reply dst)) n r := by
  unfold replyReplay at h
  split at h
  · cases h
    exact .done (.refl n) _
  · exact part_waitMigr rfl h
  · refine Part.of_edits ((Edits.refl n).self (f := fun p => { p with rcode := EMol.ok })
      fun _ => rfl) ?_
    dsimp only at h
    split at h <;> cases h
    · exact part_replyRemote ‹_›
    · exact part_replyLocal

theorem part_sendrecReplay (h : n.sendrecReplay q ep timeout cp = some r) :
    Part q (.sendrec ep) (Op.reach cp w (.sendrec ep)) n r := by
  unfold sendrecReplay at h
  split at h
  · cases h
    exact .done (.refl n) _
  · exact part_waitMigr rfl h
  · refine Part.of_edits ((Edits.refl n).self
      (f := fun p => { p with rcode := EMol.ok, getfrom := ep }) fun _ => rfl) ?_
    dsimp only at h
    split at h <;> cases h
    · exact part_sendrecRemote
    · exact part_sendrecLocal

theorem part_receivePending (id : ℕ) : Part q op A n (n.receivePending q id cp) := by
  unfold receivePending
  dsimp only
  generalize hu : (n.modProc q fun p =>
    { p with notifyPending := Function.update p.notifyPending id false }.buildNotify
      (id - n.conf.dcNrTasks = q) (id - n.conf.dcNrTasks) (id - n.conf.dcNrTasks)) = u
  have hnu : Edits (.call q) A n u := by
    rw [← hu]
    refine (Edits.refl n).self fun p => ?_
    exact Proc.buildNotify_outer _ _ _ _
  split
  · exact .done hnu _
  · exact .done (hnu.self fun _ => by rfl) _

theorem part_receiveFrom (x : ℤ) : Part q op A n (n.receiveFrom q x cp) := by
  unfold receiveFrom
  dsimp only
  split
  · exact .done ((Edits.refl n).unlink x) _
  · rename_i hok
    have hsend : (n.proc x).rts.sending = true := by
      unfold senderCheck at hok
      by_contra hs
      split_ifs at hok
      all_goals exact hok (by decide)
    generalize hu : (if cp = 0 then (n.unlink x).modProc q fun p =>
      { p with ubuf := if ((n.unlink x).proc x).rts.remote then ((n.unlink x).proc x).message
        else (n.unlink x).sentBy x } else n.unlink x) = u
    have hnu : Edits (.call q) A n u ∧ (u.proc x).rts.sending = true := by
      rw [← hu]
      split
      · refine ⟨((Edits.refl n).unlink x).self fun _ => by rfl, ?_⟩
        rw [modProc_field q x (fun p => p.rts.sending) fun _ => by rfl]
        exact hsend
      · exact ⟨(Edits.refl n).unlink x, hsend⟩
    generalize hv : (if (u.proc x).rts.remote = true ∧ ¬ (u.proc x).rts.receiving = true then
      (u.genericAckLcl2rmt .sendAck x q cp).1 else u) = v
    have hnv : Edits (.call q) A n v ∧ (v.proc x).rts.sending = true := by
      rw [← hv]
      split
      · rename_i hx
        refine ⟨hnu.1.genericAck (.inr ⟨hx.1, rfl⟩) rfl _ _, ?_⟩
        refine (sproxyEnqueue_field (fun p => p.rts.sending) (fun _ _ => rfl) x).trans ?_
        rw [modProc_field x x (fun p => p.rts.sending) fun _ => by rfl]
        exact hnu.2
      · exact hnu
    refine .done (hnv.1.mod x (fun p => ?_) (.chg (.served _ cp hnv.2) (.inl rfl))) _
    exact Proc.upIfReady_outer _ _

theorem part_receiveEnd (h : Edits (.call q) A n m) (code cp : ℤ) :
    Part q op A n (m.receiveEnd q code cp) := by
  unfold receiveEnd
  split
  · exact .done ((h.self fun _ => by rfl).self fun _ => by rfl) _
  · exact .done (h.self fun _ => by rfl) _

theorem part_miniReceive : Part q (.receive src) A n (n.miniReceive q src timeout cp) := by
  unfold miniReceive
  split
  · exact .done (.refl n) _
  split
  · exact .done ((Edits.refl n).self fun _ => by rfl) _
  split
  · exact part_receivePending _
  split
  · exact part_receiveFrom _
  · exact part_sleepOr ((Edits.refl n).self fun _ => by rfl) (by decide)
      fun _ code h => part_receiveEnd h code cp

theorem part_miniRcvrqst : Part q .rcvrqst A n (n.miniRcvrqst q timeout cp) := by
  unfold miniRcvrqst
  split
  · exact .done (.refl n) _
  split
  · exact .done ((Edits.refl n).self fun _ => by rfl) _
  split
  · exact part_receiveFrom _
  · exact part_sleepOr ((Edits.refl n).self fun _ => by rfl) (by decide)
      fun _ _ h => .done (h.self fun _ => by rfl) _

theorem part_hdwNotify {upd : ℤ} (hw : ∀ c, (n.proc c).waitsFor hardwareNr → w c) :
    Part q op (Op.reach cp w (.notify srcNr dst upd)) n (n.hdwNotify dst) := by
  unfold hdwNotify
  dsimp only
  iterate 9
    split
    · exact .done (.refl n) _
  split
  · rename_i hwait
    refine .done ((Edits.refl n).mod _ (fun p => p.deliverNotify_outer _ _ _) ?_) _
    exact .chg (.notice _ true dst _ hwait) (.inr ⟨rfl, hw _ hwait, rfl⟩)
  · exact .done ((Edits.refl n).frame _ fun _ => by rfl) _

theorem part_notifyRemote (hd : (n.proc (endpointP dst)).rts.remote = true) (srcNr upd : ℤ) :
    Part q (.notify srcNr dst upd) A n (n.notifyRemote q srcNr dst upd) := by
  unfold notifyRemote
  dsimp only
  split
  · exact .done (.refl n) _
  · refine part_sleepOr (Edits.askRemote ?_ rfl rfl _ _ _) (by decide)
      fun _ _ h => .done h.leaveProxy _
    refine (edits_stopRemote hd).mod _ (fun p => p.buildNotify_outer _ _ _) (.remote ?_)
    rw [stopRemote, modProc_same]
    exact hd

theorem part_notifyLocal (srcNr upd : ℤ)
    (hw : ∀ c, c ≠ q → (n.proc c).waitsFor (n.notifySource q srcNr).2 → w c) :
    Part q op (Op.reach cp w (.notify srcNr dst upd)) n (n.notifyLocal q srcNr dst upd) := by
  unfold notifyLocal
  dsimp only
  split
  · rename_i hwait
    refine .done (((Edits.refl n).self fun _ => by rfl).mod _
      (fun p => p.deliverNotify_outer _ _ _) ?_) _
    by_cases hd : endpointP dst = q
    · exact .own hd
    · rw [decide_eq_false hd, modProc_of_ne _ _ hd]
      exact .chg (.notice _ false _ _ hwait) (.inr ⟨rfl, hw _ hd hwait, rfl⟩)
  split
  · exact .done (.refl n) _
  · exact .done (((Edits.refl n).frame _ fun _ => by rfl).self fun _ => by rfl) _

theorem heedsNotify_congr (hw : ∀ ep, (m.proc c).waitsFor ep = (n.proc c).waitsFor ep)
    (he : ∀ i, (m.proc i).endpoint = (n.proc i).endpoint) :
    m.heedsNotify c q srcNr ↔ n.heedsNotify c q srcNr := by
  unfold heedsNotify notifySource
  rw [he, he, hw, hw]

theorem heedsNotify_leaveProxy (hc : c ≠ q) :
    (n.leaveProxy q).heedsNotify c q srcNr ↔ n.heedsNotify c q srcNr := by
  unfold leaveProxy
  refine heedsNotify_congr (fun ep => ?_) fun i => ?_
  · rw [modProc_of_ne _ _ hc]
    split <;> rfl
  · refine (modProc_field q i Proc.endpoint fun _ => by rfl).trans ?_
    split <;> rfl

theorem part_notifyReplay (srcNr upd : ℤ) (hw : ∀ c, c ≠ q → n.heedsNotify c q srcNr → w c) :
    Part q (.notify srcNr dst upd) (Op.reach cp w (.notify srcNr dst upd)) n
      (n.notifyReplay q srcNr dst upd) := by
  unfold notifyReplay
  split
  · exact .done (.refl n) _
  · unfold notifyMigrating
    dsimp only
    split
    · exact .done (.refl n) _
    · exact .done ((Edits.refl n).frame _ fun _ => by rfl) _
  · refine Part.of_edits ((Edits.refl n).self (f := fun p => { p with rcode := EMol.ok })
      fun _ => rfl) ?_
    dsimp only
    split
    · exact part_notifyRemote ‹_› srcNr upd
    · refine part_notifyLocal srcNr upd fun c hc h => hw c hc ?_
      refine (heedsNotify_congr (fun ep => by rw [modProc_of_ne _ _ hc]) fun i => ?_).mp (.inl h)
      exact modProc_field q i Proc.endpoint fun _ => rfl

theorem part_call {msg : Message} (h : n.call q op msg timeout cp = some r) :
    Part q op (op.reach cp fun c => n.heeds c q op) n r := by
  have hbuf : ∀ A, Edits (.call q) A n (n.modProc q fun p => { p with ubuf := msg }) := fun A =>
    (Edits.refl n).self fun _ => by rfl
  cases op with
  | send dst =>
    change n.miniSend q dst msg timeout cp = some r at h
    unfold miniSend at h
    split at h
    · cases h
      exact .done (.refl n) _
    split at h
    · cases h
    · exact .of_edits (hbuf _) (part_sendReplay h)
  | sendrec ep =>
    change n.miniSendrec q ep msg timeout cp = some r at h
    unfold miniSendrec at h
    split at h
    · cases h
      exact .done (.refl n) _
    split at h
    · cases h
    · exact .of_edits (hbuf _) (part_sendrecReplay h)
  | reply dst =>
    change n.miniReply q dst msg timeout cp = some r at h
    unfold miniReply at h
    split at h
    · cases h
      exact .done (.refl n) _
    split at h
    · cases h
    · exact .of_edits (hbuf _) (part_replyReplay h)
  | receive src =>
    cases h
    exact part_miniReceive
  | rcvrqst =>
    cases h
    exact part_miniRcvrqst
  | notify srcNr dst upd =>
    change n.miniNotify q srcNr dst upd = some r at h
    unfold miniNotify at h
    split at h
    · rename_i hhw
      cases h
      exact part_hdwNotify fun _ h => .inr ⟨hhw, h⟩
    split at h
    · cases h
      exact .done (.refl n) _
    split at h
    · cases h
      exact .done (.refl n) _
    split at h
    · cases h
    · cases h
      exact part_notifyReplay _ _ fun _ _ => id

theorem part_retry {left : Node} {k : Option (Node × Next)} (hleft : Edits (.call q) A n left)
    (hk : ∀ r, k = some r → Part q op A left r) (h : (if code = EMol.ok then some (n, .ret code)
      else if code = EMol.migrate then k else some (left, .ret code)) = some r) :
    Part q op A n r := by
  split at h
  · cases h
    exact .done (.refl n) _
  split at h
  · exact .of_edits hleft (hk r h)
  · cases h
    exact .done hleft _

theorem part_resume (h : n.resume q op wait timeout code cp = some r) :
    Part q op (op.reach cp fun c => n.heeds c q op) n r := by
  have hproxy : ∀ A, Edits (.call q) A n (n.leaveProxy q) := fun A => (Edits.refl n).leaveProxy
  have hqueue : ∀ A, Edits (.call q) A n (n.leaveQueue q) := fun A => (Edits.refl n).leaveQueue
  unfold resume at h
  split at h
  · exact part_sendReplay h
  · exact part_sendrecReplay h
  · exact part_replyReplay h
  · exact part_retry (hproxy _) (fun _ => part_sendReplay) h
  · exact part_retry (hqueue _) (fun _ => part_sendReplay) h
  · exact part_retry (hproxy _) (fun _ => part_replyReplay) h
  · exact part_retry ((hproxy _).self fun _ => by rfl) (fun _ => part_sendrecReplay) h
  · exact part_retry ((hqueue _).self fun _ => by rfl) (fun _ => part_sendrecReplay) h
  · split at h <;> cases h
    · exact .done (.refl n) _
    · exact .done ((Edits.refl n).self fun _ => by rfl) _
  · cases h
    exact part_receiveEnd (.refl n) code cp
  · cases h
    exact .done ((Edits.refl n).self fun _ => by rfl) _
  · refine part_retry (hproxy _) (fun r hr => ?_) h
    cases hr
    exact part_notifyReplay _ _ fun c hc => (heedsNotify_leaveProxy hc).mp
  · cases h

theorem part_wake {w : ℤ} (h : n.wake q op wait timeout w cp = some r) :
    (∃ m, Edits (.call q) (op.reach cp fun c => n.heeds c q op) n m ∧ r = (m, .sleep op wait)) ∨
      Part q op (op.reach cp fun c => n.heeds c q op) n r := by
  obtain ⟨code, -, ⟨-, rfl⟩ | hres⟩ := wake_inv h
  · exact .inl ⟨_, (Edits.refl n).self fun _ => by rfl, rfl⟩
  · right
    generalize hu : (n.modProc q (Proc.roused code)).modProc q Proc.wakeMigr = u at hres
    have hnu : ∀ A, Edits (.call q) A n u := fun A => by
      rw [← hu]
      exact ((Edits.refl n).self fun _ => by rfl).self Proc.wakeMigr_outer
    have hheeds : ∀ c, u.heeds c q op = n.heeds c q op := fun c => by
      cases op with
      | notify srcNr dst upd =>
        refine propext (heedsNotify_congr (fun ep => ?_) fun i => ?_)
        · rw [← hu, modProc_field q c (·.waitsFor ep) fun p => p.wakeMigr_waitsFor ep]
          exact modProc_field q c (·.waitsFor ep) fun _ => rfl
        · rw [← hu, modProc_field q i Proc.endpoint Proc.wakeMigr_endpoint]
          exact modProc_field q i Proc.endpoint fun _ => rfl
      | send | sendrec | reply | receive | rcvrqst => rfl
    have hpart := part_resume hres
    simp only [hheeds] at hpart
    exact .of_edits (hnu _) hpart

end Calls

end Node

end MolIpc
