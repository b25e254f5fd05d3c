import MolIpc.Ipc.Disturb
import MolIpc.Ipc.Producers
import MolIpc.Lib.Reach
import MolIpc.Net.AckPaths

/-!
Every command in the queue of a sender proxy is one that `mm_get2rmt` sends and the node at the
other end understands.

All the steps of a node keep this, with these exceptions. The unbinding of a process answers its
remote clients with `CMD_SNDREC_ACK`, for which `mm_put2lcl` has no case. A migration answers the
remote senders with what their descriptors have carried last and the acknowledge bit, which is
`CMD_NONE` after the descriptor has been sent. And a descriptor that is linked must not be taken
over: by a new binding, by the end of a copy of a process that has been signaled, by a migration,
or by a proxy that still has it in its hands from an earlier command.
-/

namespace MolIpc

open Reach Sections

/-! ### What the proxies make of a sendable descriptor -/

theorem Node.put2lclCmd_of_noCase (n : Node) {h : Hdr} (hc : h.cmd.hasCase = false) (pay : Mem)
    (cp : ℤ) : n.put2lclCmd h pay cp = some (n, EMol.badrequest) := by
  unfold put2lclCmd
  cases hk : h.cmd <;> rw [hk] at hc <;> exact nomatch hc

namespace Node

variable {n m n' : Node} {x i ret cp q t new : ℤ} {pay : Mem} {f : Proc → Proc} {r : Node × Mem × ℤ}

structure SameLoad (n n' : Node) : Prop where
  load (q : ℤ) : (n'.proc q).load = (n.proc q).load

theorem SameLoad.refl (n : Node) : SameLoad n n := ⟨fun _ => rfl⟩

theorem SameLoad.cmd (h : SameLoad n m) (q : ℤ) : (m.proc q).rmtcmd.cmd = (n.proc q).rmtcmd.cmd :=
  congrArg Prod.fst (h.load q)

theorem SameLoad.modProc (h : SameLoad n m) (i : ℤ) (hf : ∀ p, (f p).load = p.load) :
    SameLoad n (m.modProc i f) := ⟨fun q => (modProc_field i q Proc.load hf).trans (h.load q)⟩

theorem SameLoad.clearOncopy (h : SameLoad n m) (i : ℤ) : SameLoad n (m.clearOncopy i) :=
  h.modProc i fun _ => by rfl

theorem sameLoad_get2rmtAck (h : n.get2rmtAck x pay cp = some r) : SameLoad n r.1 :=
  get2rmtAck_keeps h (.refl n) fun i h => h.clearOncopy i

theorem sameLoad_get2rmtRequest : SameLoad n (n.get2rmtRequest x pay cp).1 := by
  unfold get2rmtRequest
  dsimp only
  generalize hun : (n.modProc x fun p => { p with rts := { p.rts with rmtoper := false } }) = u
  have hu : SameLoad n u := hun ▸ (SameLoad.refl n).modProc x fun _ => by rfl
  split
  · split <;> exact hu
  all_goals try exact hu
  all_goals dsimp only
  · exact hu.modProc x fun _ => by rfl
  · exact hu.modProc x fun _ => by rfl
  · exact hu.modProc x fun _ => by rfl
  · refine hu.modProc x fun _ => ?_
    rw [Proc.upIfReady_load]
    rfl

theorem get2rmtAck_ne_inval (hs : (n.proc x).Sendable) (hr : (n.proc x).rts.remote = true)
    (hcp : cp ≠ EMol.inval) (h : n.get2rmtAck x pay cp = some r) : r.2.2 ≠ EMol.inval := by
  have hby : (n.proc x).rmtcmd.cmd.byRemote = true := hs.2.symm.trans hr
  have hok : EMol.ok ≠ EMol.inval := by decide
  have hbad : EMol.badproc ≠ EMol.inval := by decide
  have hbig : EMol.tooBig ≠ EMol.inval := by decide
  unfold get2rmtAck at h
  dsimp only at h
  cases hc : (n.proc x).rmtcmd.cmd <;> rw [hc] at h hby
  all_goals try exact absurd hby Bool.false_ne_true
  all_goals dsimp only at h
  all_goals repeat' split at h
  all_goals
    simp only [reduceCtorEq, Option.some.injEq] at h
    try subst h
    try first
      | exact hok
      | exact hbad
      | exact hcp
      | exact hbig

theorem get2rmtRequest_ne_inval (hs : (n.proc x).Sendable) (hr : (n.proc x).rts.remote = false)
    (hcp : cp ≠ EMol.inval) : (n.get2rmtRequest x pay cp).2.2 ≠ EMol.inval := by
  have hby : (n.proc x).rmtcmd.cmd.byRemote = false := hs.2.symm.trans hr
  have hcase := hs.1
  have hok : EMol.ok ≠ EMol.inval := by decide
  have hbig : EMol.tooBig ≠ EMol.inval := by decide
  unfold get2rmtRequest
  dsimp only
  rw [modProc_same]
  cases hc : (n.proc x).rmtcmd.cmd <;> rw [hc] at hby hcase
  all_goals try first
    | exact hok
    | exact absurd hcase Bool.false_ne_true
    | exact absurd hby.symm Bool.false_ne_true
  dsimp only
  split
  · exact hbig
  · exact hcp

theorem get2rmtClose_got (hcase : (r.1.proc x).rmtcmd.cmd.hasCase = true)
    (hcode : r.2.2 ≠ EMol.inval) :
    (get2rmtClose x r).2.2 ≠ .fail EMol.inval ∧
      ∀ hd, (get2rmtClose x r).2.2 = .hdr hd → hd.cmd.hasCase = true := by
  unfold get2rmtClose
  split
  · refine ⟨fun h => hcode (Got.fail.inj h), fun _ h => ?_⟩
    simp at h
  · refine ⟨by simp, fun hd h => ?_⟩
    rw [← Got.hdr.inj h]
    exact hcase

/-- **What `mm_get2rmt` makes of a sendable descriptor**: a header that has a case in `mm_put2lcl`,
or an error that is not the one of its own switch. -/
theorem get2rmtSend_of_sendable (hs : (n.proc x).Sendable) (hcp : cp ≠ EMol.inval)
    {r : Node × Mem × Got} (h : n.get2rmtSend x EMol.ok pay cp = some r) :
    r.2.2 ≠ .fail EMol.inval ∧ ∀ hd, r.2.2 = .hdr hd → hd.cmd.hasCase = true := by
  unfold get2rmtSend at h
  rw [if_neg (not_not_intro rfl)] at h
  by_cases hr : (n.proc x).rts.remote = true
  · rw [if_pos hr] at h
    obtain ⟨a, ha, rfl⟩ := Option.map_eq_some_iff.1 h
    have hcase : (a.1.proc x).rmtcmd.cmd.hasCase = true := by
      rw [(sameLoad_get2rmtAck ha).cmd x]
      exact hs.1
    have hcode := get2rmtAck_ne_inval hs hr hcp ha
    split
    · exact get2rmtClose_got hcase hcode
    · refine get2rmtClose_got ?_ hcode
      rw [modProc_same]
      exact hcase
  · rw [if_neg hr] at h
    rw [Bool.not_eq_true] at hr
    unfold get2rmtSendRequest at h
    dsimp only at h
    split at h
    · exact nomatch h
    split at h
    · cases h
      simp
    · cases h
      refine get2rmtClose_got ?_ (get2rmtRequest_ne_inval hs hr hcp)
      rw [modProc_same]
      rw [sameLoad_get2rmtRequest.cmd x]
      exact hs.1

/-! ### Queues of sendable descriptors -/

def Queued (n : Node) (x : ℤ) : Prop := ∃ px, x ∈ (n.sproxy px).list

/-- **The node says nothing that is not understood**: all queued descriptors are sendable. -/
def Understood (n : Node) : Prop := ∀ x, n.Queued x → (n.proc x).Sendable

theorem Understood.feeds (hn : n.Understood) (h : Feeds n m) : m.Understood := by
  rintro x ⟨px, hx⟩
  rcases h.queue px x hx with hx | hs
  · exact h.desc x (hn x ⟨px, hx⟩)
  · exact hs

/-- The descriptor `x` may become anything, and the commands of the others stay. -/
structure TakesOver (x : ℤ) (n n' : Node) : Prop where
  sproxy : n'.sproxy = n.sproxy
  load (y : ℤ) : y ≠ x → (n'.proc y).load = (n.proc y).load

theorem TakesOver.refl (x : ℤ) (n : Node) : TakesOver x n n := ⟨rfl, fun _ _ => rfl⟩

theorem TakesOver.modProc (h : TakesOver x n m) (f : Proc → Proc) :
    TakesOver x n (m.modProc x f) :=
  ⟨h.sproxy, fun y hy => by rw [modProc_of_ne _ _ hy]; exact h.load y hy⟩

theorem SameLoad.takesOver (h : SameLoad n m) (hp : SameProxies n m) (x : ℤ) : TakesOver x n m :=
  ⟨hp.sproxy, fun y _ => h.load y⟩

theorem Understood.takesOver (hn : n.Understood) (hx : ¬ n.Queued x) (h : TakesOver x n m) :
    m.Understood := by
  rintro y ⟨px, hy⟩
  rw [h.sproxy] at hy
  have hq : n.Queued y := ⟨px, hy⟩
  have hyx : y ≠ x := fun he => hx (he ▸ hq)
  exact (Proc.sendable_congr (h.load y hyx)).2 (hn y hq)

theorem TakesOver.giveUp (h : TakesOver x n m) (ret : ℤ) :
    TakesOver x n (m.get2rmtGiveUp x ret) := by
  unfold get2rmtGiveUp
  split
  · exact h.modProc _
  · exact h.modProc _

theorem TakesOver.close (h : TakesOver x n r.1) : TakesOver x n (get2rmtClose x r).1 := by
  unfold get2rmtClose get2rmtDone
  split
  · exact h.giveUp _
  · dsimp only
    exact h.modProc _

theorem takesOver_get2rmtSend {r : Node × Mem × Got} (h : n.get2rmtSend x ret pay cp = some r) :
    TakesOver x n r.1 := by
  unfold get2rmtSend at h
  split at h
  · cases h
    exact ((TakesOver.refl x n).modProc _).giveUp ret
  split at h
  · obtain ⟨a, ha, rfl⟩ := Option.map_eq_some_iff.1 h
    have hack := (sameLoad_get2rmtAck ha).takesOver (sameProxies_ack ha) x
    refine TakesOver.close ?_
    split
    · exact hack
    · dsimp only
      exact hack.modProc _
  · unfold get2rmtSendRequest at h
    dsimp only at h
    split at h
    · exact absurd h (Option.some_ne_none _).symm
    split at h
    · cases h
      dsimp only
      exact (TakesOver.refl x n).modProc _
    · cases h
      refine TakesOver.close ?_
      dsimp only
      exact (sameLoad_get2rmtRequest.takesOver sameProxies_request x).modProc _

/-! ### Unbinding -/

/-- To answer the remote process `q` that receives from `i`, the unbinding sends it
`CMD_SNDREC_ACK`. -/
def UnbindsServer (n : Node) (i q : ℤ) : Prop :=
  (n.proc q).rts.remote = true ∧ (n.proc q).receivesFrom (n.proc i).endpoint

instance (n : Node) (i q : ℤ) : Decidable (n.UnbindsServer i q) :=
  inferInstanceAs (Decidable (_ ∧ _))

theorem feeds_unlinkM (x : ℤ) (n : Node) : Feeds n (n.unlinkM x) :=
  ⟨fun _ _ => .inl, fun _ => id, fun _ => rfl⟩

theorem feeds_unlinkU (x : ℤ) (n : Node) : Feeds n (n.unlinkU x) :=
  ⟨fun _ _ => .inl, fun _ => id, fun _ => rfl⟩

theorem Feeds.tell (h : Feeds n m) (x i code : ℤ) : Feeds n (m.tell .sendAck x i code) := by
  unfold Node.tell
  split
  · exact h.trans (feeds_genericAck rfl rfl ‹_› _ _)
  · exact h.modProc x fun _ => by rfl

theorem feeds_unbindReceiver (hq : ¬ n.UnbindsServer i q) : Feeds n (unbindReceiver i q n) := by
  unfold unbindReceiver
  split
  · rename_i hrcv
    rw [if_neg fun hr => hq ⟨hr, hrcv⟩]
    exact feeds_modProc q n fun _ => by rfl
  · exact .refl n

theorem feeds_unbindScan (hq : ¬ n.UnbindsServer i q) : Feeds n (unbindScan i q n) := by
  unfold unbindScan
  split
  · exact .refl n
  rename_i hskip
  have hiq : i ≠ q := fun h => hskip (.inl h.symm)
  unfold unbindBit
  split
  · refine (feeds_modProc q n fun _ => by rfl).trans (feeds_unbindReceiver fun h => hq ?_)
    obtain ⟨hr, hrcv⟩ := h
    rw [modProc_of_ne _ _ hiq] at hrcv
    rw [modProc_same] at hr hrcv
    exact ⟨hr, hrcv⟩
  · exact feeds_unbindReceiver hq

theorem feeds_unbindSec {sec : UnbindSec} (hscan : ∀ q, sec = .scan q → ¬ n.UnbindsServer i q)
    (hinit : sec ≠ .init) : Feeds n (unbindSec i sec n) := by
  cases sec with
  | sender x =>
    exact Feeds.tell ((feeds_unlink x n).modProc x fun _ => by rfl) x i _
  | scan q => exact feeds_unbindScan (hscan q rfl)
  | proxy =>
    show Feeds n (unbindProxy i n)
    unfold unbindProxy
    split
    · refine Feeds.modProc ?_ i fun _ => by rfl
      split
      · exact feeds_unlink i n
      · exact .refl n
    · exact .refl n
  | sending =>
    show Feeds n (unbindSending i n)
    unfold unbindSending
    split
    · refine Feeds.modProc ?_ i fun _ => by rfl
      split
      · exact .refl n
      · exact feeds_unlink i n
    · exact .refl n
  | waitmigr =>
    show Feeds n (unbindWaitmigr i n)
    unfold unbindWaitmigr
    split
    · exact (feeds_unlinkM i n).modProc i fun _ => by rfl
    · exact .refl n
  | migr x => exact Feeds.tell ((feeds_unlinkM x n).modProc x fun _ => by rfl) x i _
  | waitunbind =>
    show Feeds n (unbindWaitunbind i n)
    unfold unbindWaitunbind
    split
    · exact (feeds_unlinkU i n).modProc i fun _ => by rfl
    · exact .refl n
  | waiter x => exact Feeds.tell ((feeds_unlinkU x n).modProc x fun _ => by rfl) x i _
  | init => exact absurd rfl hinit

theorem feeds_unbindOther (sig : ℤ) : Feeds n (n.unbindOther i sig).1 := by
  unfold unbindOther
  dsimp only
  split
  · dsimp only
    split
    · exact feeds_modProc i n fun _ => by rfl
    · exact .refl n
  split
  · exact .refl n
  dsimp only
  split
  · exact feeds_modProc i n fun _ => by rfl
  · exact .refl n

/-! ### Migrating -/

/-- The sender `x` is none of the threads `ts`, and can be answered if it is remote. -/
def Answerable (n : Node) (ts : List ℤ) (x : ℤ) : Prop :=
  x ∉ ts ∧ ((n.proc x).rts.remote = true →
    (n.proc x).rmtcmd.cmd.isAck = true ∨ (n.proc x).rmtcmd.cmd.orAck.hasCase = true)

/-- The threads `ts` are in no queue of a proxy, and those who send to them can be answered. -/
def Movable (n : Node) (ts : List ℤ) : Prop :=
  ∀ t ∈ ts, ¬ n.Queued t ∧ ∀ x ∈ (n.proc t).list, n.Answerable ts x

/-- The threads `ts` can leave the node after a step if they could before it. -/
structure Clears (ts : List ℤ) (n m : Node) : Prop where
  queued : ∀ t ∈ ts, m.Queued t → n.Queued t
  list : ∀ t ∈ ts, (m.proc t).list ⊆ (n.proc t).list
  answer : ∀ x, n.Answerable ts x → m.Answerable ts x

section Clears

variable {ts : List ℤ}

theorem Clears.refl (ts : List ℤ) (n : Node) : Clears ts n n :=
  ⟨fun _ _ => id, fun _ _ => List.Subset.refl _, fun _ => id⟩

theorem Clears.trans (h : Clears ts n m) (h' : Clears ts m n') : Clears ts n n' where
  queued t ht := h.queued t ht ∘ h'.queued t ht
  list t ht := List.Subset.trans (h'.list t ht) (h.list t ht)
  answer x := h'.answer x ∘ h.answer x

theorem Movable.clears (hn : n.Movable ts) (h : Clears ts n m) : m.Movable ts := fun t ht =>
  ⟨fun hq => (hn t ht).1 (h.queued t ht hq),
    fun x hx => h.answer x ((hn t ht).2 x (h.list t ht hx))⟩

theorem answerable_congr {y : ℤ} (h : (m.proc y).load = (n.proc y).load) :
    n.Answerable ts y → m.Answerable ts y := by
  simp only [Proc.load, Prod.mk.injEq] at h
  unfold Answerable
  rw [h.1, h.2]
  exact id

theorem clears_modProc (x : ℤ) (n : Node) (hlist : ∀ p, (f p).list = p.list)
    (hload : (∀ p, (f p).load = p.load) ∨ x ∈ ts) : Clears ts n (n.modProc x f) := by
  refine ⟨fun _ _ => id, fun t _ => ?_, fun y hy => ?_⟩
  · rw [modProc_field x t Proc.list hlist]
    exact List.Subset.refl _
  · rcases hload with hload | hx
    · exact answerable_congr (modProc_field x y Proc.load hload) hy
    · have hyx : y ≠ x := fun h => hy.1 (h ▸ hx)
      refine answerable_congr ?_ hy
      rw [modProc_of_ne _ _ hyx]

theorem clears_unlink (x : ℤ) (n : Node) : Clears ts n (n.unlink x) where
  queued _ _ := fun ⟨px, hq⟩ => ⟨px, (List.mem_filter.1 hq).1⟩
  list _ _ := fun _ hy => (List.mem_filter.1 hy).1
  answer _ := answerable_congr rfl

theorem clears_unlinkM (x : ℤ) (n : Node) : Clears ts n (n.unlinkM x) where
  queued _ _ := id
  list _ _ := List.Subset.refl _
  answer _ := answerable_congr rfl

theorem clears_flushMigr (x : ℤ) : Clears ts n (n.flushMigr i x) := by
  unfold flushMigr
  dsimp only
  split
  · refine (clears_unlinkM x n).trans (clears_modProc x _ (fun p => ?_) (.inl fun p => ?_))
    · exact Proc.upIfReady_list _ _
    · exact Proc.upIfReady_load _ _
  · exact clears_unlinkM x n

end Clears

theorem feeds_flushMigr (x : ℤ) : Feeds n (n.flushMigr i x) := by
  unfold flushMigr
  dsimp only
  split
  · refine (feeds_unlinkM x n).modProc x fun p => ?_
    exact Proc.upIfReady_load _ _
  · exact feeds_unlinkM x n

theorem feeds_flushMigrList (i : ℤ) (n : Node) : Feeds n (n.flushMigrList i) := by
  unfold flushMigrList
  generalize (n.proc i).mlist = l
  induction l generalizing n with
  | nil => exact .refl n
  | cons x l ih => exact (feeds_flushMigr x).trans (ih _)

theorem byRemote_orAck {c : Cmd} (hcase : c.orAck.hasCase = true) :
    c.orAck.byRemote = true ∧ c.orAck.isAck = true := by
  cases c <;> first | exact ⟨rfl, rfl⟩ | exact absurd hcase Bool.false_ne_true

theorem queued_sproxyEnqueue (h : (n.sproxyEnqueue x).1.Queued t) : t = x ∨ n.Queued t := by
  obtain ⟨px, hq⟩ := h
  by_cases hfree : (n.sproxy (n.conf.nProxies (n.proc x).rmtcmd.dnode)).rts = Rts.onlyFree
  · rw [sproxyEnqueue_of_free _ _ hfree] at hq
    exact .inr ⟨px, hq⟩
  · rw [sproxyEnqueue_list hfree] at hq
    split at hq
    · rcases List.mem_append.1 hq with hq | hq
      · exact .inr ⟨px, hq⟩
      · exact .inl (List.mem_singleton.1 hq)
    · exact .inr ⟨px, hq⟩

section Moves

variable {ts : List ℤ}

theorem clears_errorLcl2rmt {ack : Cmd} (hx : x ∉ ts) (hack : ack.isAck = true) (h : Hdr)
    (code : ℤ) : Clears ts n (n.errorLcl2rmt ack x h code).1 := by
  have hne {q : ℤ} (hq : q ≠ x) : (n.errorLcl2rmt ack x h code).1.proc q = n.proc q := by
    simp [errorLcl2rmt, hq]
  refine ⟨fun t ht hq => ?_, fun t ht => ?_, fun y hy => ?_⟩
  · exact (queued_sproxyEnqueue hq).resolve_left fun he => hx (he ▸ ht)
  · rw [hne fun he => hx (he ▸ ht)]
    exact List.Subset.refl _
  · by_cases hyx : y = x
    · refine ⟨hy.1, fun _ => .inl ?_⟩
      rw [hyx]
      unfold errorLcl2rmt
      rw [sproxyEnqueue_field Proc.rmtcmd (fun _ _ => rfl), modProc_same]
      exact hack
    · refine answerable_congr ?_ hy
      rw [hne hyx]

theorem flushSender_spec (hx : n.Answerable ts x) :
    Feeds n (n.flushSender x) ∧ Clears ts n (n.flushSender x) := by
  unfold flushSender
  dsimp only
  have hf := feeds_unlink x n
  have hc : Clears ts n (n.unlink x) := clears_unlink x n
  have hx' := hc.answer x hx
  generalize n.unlink x = u at hf hc hx' ⊢
  split
  · have hload : ∀ p : Proc, p.replay.load = p.load := fun p => Proc.upIfReady_load _ _
    have hlist : ∀ p : Proc, p.replay.list = p.list := fun p => Proc.upIfReady_list _ _
    exact ⟨hf.modProc x hload, hc.trans (clears_modProc x u hlist (.inl hload))⟩
  rename_i hr
  rw [Classical.not_not] at hr
  split
  · exact ⟨hf, hc⟩
  · rename_i hack
    have hcase := (hx'.2 hr).resolve_left hack
    obtain ⟨hby, hisAck⟩ := byRemote_orAck hcase
    exact ⟨hf.trans (feeds_errorLcl2rmt hcase hby hr _ _),
      hc.trans (clears_errorLcl2rmt hx.1 hisAck _ _)⟩

theorem flushSenders_spec (l : List ℤ) (n : Node) (hl : ∀ x ∈ l, n.Answerable ts x) :
    Feeds n (l.foldl (fun n x => n.flushSender x) n) ∧
      Clears ts n (l.foldl (fun n x => n.flushSender x) n) := by
  induction l generalizing n with
  | nil => exact ⟨.refl n, .refl ts n⟩
  | cons x l ih =>
    obtain ⟨hf, hc⟩ := flushSender_spec (hl x List.mem_cons_self)
    obtain ⟨hf', hc'⟩ := ih (n.flushSender x) fun y hy =>
      hc.answer y (hl y (List.mem_cons_of_mem x hy))
    exact ⟨hf.trans hf', hc.trans hc'⟩

theorem clears_flushMigrList (i : ℤ) (n : Node) : Clears ts n (n.flushMigrList i) := by
  unfold flushMigrList
  generalize (n.proc i).mlist = l
  induction l generalizing n with
  | nil => exact .refl ts n
  | cons x l ih => exact (clears_flushMigr x).trans (ih _)

theorem oldThread_spec (new : ℤ) (hn : n.Understood) (hm : n.Movable ts) (ht : t ∈ ts) :
    (n.oldThread new t).Understood ∧ (n.oldThread new t).Movable ts := by
  have hleave : Clears ts n (n.modProc t (·.leave new)) :=
    clears_modProc t n (fun p => by unfold Proc.leave; dsimp only; split <;> rfl) (.inr ht)
  have hu : (n.modProc t (·.leave new)).Understood :=
    hn.takesOver (hm t ht).1 ((TakesOver.refl t n).modProc _)
  have hm' := hm.clears hleave
  unfold oldThread flushSendingList
  generalize n.modProc t (·.leave new) = u at hu hm' ⊢
  obtain ⟨hf, hc⟩ := flushSenders_spec _ u (hm' t ht).2
  exact ⟨(hu.feeds hf).feeds (feeds_flushMigrList t _),
    (hm'.clears hc).clears (clears_flushMigrList t _)⟩

theorem oldThreads_spec (l : List ℤ) (n : Node) (hl : ∀ t ∈ l, t ∈ ts) (hn : n.Understood)
    (hm : n.Movable ts) : (l.foldl (fun n t => n.oldThread new t) n).Understood := by
  induction l generalizing n with
  | nil => exact hn
  | cons t l ih =>
    obtain ⟨hu, hm'⟩ := oldThread_spec new hn hm (hl t List.mem_cons_self)
    exact ih _ (fun t' ht' => hl t' (List.mem_cons_of_mem t ht')) hu hm'

end Moves

theorem feeds_rollbackThread (t : ℤ) (n : Node) : Feeds n (n.rollbackThread t) := by
  refine Feeds.modProc ?_ t fun p => Proc.upIfReady_load _ _
  exact (feeds_modProc t n fun _ => by rfl).trans (feeds_flushMigrList t _)

theorem Understood.migrate (hn : n.Understood) {env : MigrEnv} {oper : MigrOper} {pid ep : ℤ}
    (hm : oper = .commit → n.Movable (endpointP ep :: env.others)) :
    (n.migrate env oper pid ep new).1.Understood := by
  rcases migrate_tries n env oper pid ep new with ⟨-, h⟩ | ⟨-, -, -, hmigr⟩
  · rw [h]
    exact hn
  have hsettle : ∀ {u : Node}, u.Understood → (u.modProc (endpointP ep) fun p =>
      { p with nodemap := Function.update p.nodemap new true }.unmark).Understood := fun {u} hu =>
    hu.feeds (feeds_modProc _ u fun _ => by rfl)
  generalize (n.migrate env oper pid ep new).1 = m at hmigr ⊢
  cases hmigr with
  | startRemote | rollbackRemote => exact hn.feeds (feeds_modProc _ n fun _ => by rfl)
  | start =>
    exact hn.feeds (foldl_related (R := Feeds) .refl .trans
      (fun t _ n => feeds_modProc t n fun _ => by rfl) n)
  | rollback =>
    exact hn.feeds (foldl_related (R := Feeds) .refl .trans
      (fun t _ n => feeds_rollbackThread t n) n)
  | old => exact hsettle (oldThreads_spec _ n (fun _ => id) hn (hm rfl))
  | new =>
    have hi := (hm rfl _ List.mem_cons_self).1
    exact hsettle (hn.takesOver hi ((TakesOver.refl _ n).modProc _))
  | other =>
    exact hsettle ((hn.feeds (feeds_modProc _ n fun _ => by rfl)).feeds
      (feeds_flushMigrList _ _))

/-! ### Binding -/

section Bind

variable {oper : BindOper} {pid ep nodeid : ℤ} {env : BindEnv}

theorem takesOver_bindOpen : TakesOver (endpointP ep) n (n.bindOpen oper ep nodeid env).1 := by
  rcases bindOpen_cases n oper ep nodeid env with ⟨code, ho⟩ | ⟨-, -, r, ho⟩
  · rw [ho]
    exact .refl _ n
  · rw [ho]
    dsimp only
    exact (TakesOver.refl _ n).modProc _

theorem takesOver_bindClose (node : ℤ) :
    TakesOver (endpointP ep) n (n.bindClose oper pid ep env node).1 := by
  unfold bindClose
  split
  · exact .refl _ n
  · exact (TakesOver.refl _ n).modProc _

theorem takesOver_autobind (lock : ℤ) (pairFree : Bool) :
    TakesOver (endpointP ep) n (n.autobind ep nodeid lock pairFree).1 := by
  have hinit := (TakesOver.refl (endpointP ep) n).modProc (·.initDesc n.conf.dcid)
  unfold autobind
  dsimp only
  split_ifs
  all_goals try first | exact .refl _ n | exact hinit
  dsimp only
  exact hinit.modProc _

end Bind

/-! ### The steps of a node -/

/-- A caller is of this node, and has not been signaled if it copies; a command comes from a remote
process; and no exception occurs. -/
def Speaks (n : Node) : NodeAct → Prop
  | .call q .. | .wake q .. => (n.proc q).rts.remote = false
  | .vcopy q .. | .vcopyWake q .. => (n.proc q).rts.remote = false ∧ (n.proc q).rts.signaled = false
  | .put2lcl _ h _ _ => FromRemote n h
  | .emit x .. => ¬ n.Queued x
  | .unbindSec i sec => (∀ q, sec = .scan q → ¬ n.UnbindsServer i q) ∧ (sec = .init → ¬ n.Queued i)
  | .bindOpen _ ep _ _ | .bindClose _ _ ep _ _ | .autobind ep .. => ¬ n.Queued (endpointP ep)
  | .migrate env oper _ ep _ => oper = .commit → n.Movable (endpointP ep :: env.others)
  | .dequeue _ | .unbindOther .. => True

theorem Understood.act (hn : n.Understood) {a : NodeAct} (ha : n.Speaks a)
    (h : n.act a = some m) : m.Understood := by
  cases a with
  | call q op msg timeout cp =>
    obtain ⟨r, hr, rfl⟩ := Option.map_eq_some_iff.1 h
    exact hn.feeds (feeds_call ha hr)
  | wake q op wait timeout w cp =>
    obtain ⟨r, hr, rfl⟩ := Option.map_eq_some_iff.1 h
    exact hn.feeds (feeds_wake ha hr)
  | vcopy q srcEp saddr dstEp daddr bytes cp =>
    obtain ⟨r, hr, rfl⟩ := Option.map_eq_some_iff.1 h
    exact hn.feeds ((edits_vcopyStart hr).feeds_copy ha.1 ha.2)
  | vcopyWake q next w cp =>
    cases h
    exact hn.feeds ((edits_vcopyWake next w cp).feeds_copy ha.1 ha.2)
  | put2lcl px hdr pay cp =>
    obtain ⟨r, hr, rfl⟩ := Option.map_eq_some_iff.1 h
    exact hn.feeds (feeds_put2lcl ha hr)
  | dequeue px =>
    obtain ⟨r, hr, rfl⟩ := Option.map_eq_some_iff.1 h
    unfold get2rmtDequeue at hr
    split at hr
    · exact nomatch hr
    · cases hr
      exact hn.feeds (feeds_unlink _ n)
  | emit x ret pay cp =>
    obtain ⟨r, hr, rfl⟩ := Option.map_eq_some_iff.1 h
    exact hn.takesOver ha (takesOver_get2rmtSend hr)
  | unbindOther i sig =>
    cases h
    exact hn.feeds (feeds_unbindOther sig)
  | unbindSec i sec =>
    cases h
    by_cases hinit : sec = .init
    · rw [hinit]
      exact hn.takesOver (ha.2 hinit) ((TakesOver.refl i n).modProc (·.initDesc n.conf.dcid))
    · exact hn.feeds (feeds_unbindSec ha.1 hinit)
  | bindOpen oper ep nodeid env =>
    cases h
    exact hn.takesOver ha takesOver_bindOpen
  | bindClose oper pid ep env node =>
    cases h
    exact hn.takesOver ha (takesOver_bindClose node)
  | autobind ep nodeid lock pairFree =>
    cases h
    exact hn.takesOver ha (takesOver_autobind lock pairFree)
  | migrate env oper pid ep new =>
    cases h
    exact hn.migrate ha

def clientSample : Node where
  conf := Conf.sample 1
  proc := fun q =>
    if q = 6 then Proc.sample 1 6 {}
    else if q = 5 then Proc.sample 0 5 { remote := true }
    else {}
  sproxy := Proc.sampleProxy
  rproxy := Proc.sampleProxy

def clientAsks : Option (Node × Hdr) :=
  (clientSample.call 6 (.sendrec 5) {} timeoutForever 0).bind fun r => r.1.nextSent 0

def serverLeaves : Option Node :=
  clientAsks.bind fun r =>
    (exec act (fun _ _ => True) ackSample [.put2lcl 1 r.2 (fun _ => 0) 0,
      .call 5 (.receive anyEp) {} timeoutForever 0]).map fun n => (n.doUnbind (.proc 5) 5 0).1

def serverGone : Option (Node × Hdr) := serverLeaves.bind fun n => n.nextSent 1

def goneHdr : Hdr :=
  { cmd := .sndrecAck, src := 5, dst := 6, snode := 0, dnode := 1, rcode := EMol.srcdied }

end Node

end MolIpc
