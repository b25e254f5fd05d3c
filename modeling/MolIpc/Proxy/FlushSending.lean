import MolIpc.Ipc.Vcopy

/-!
`flush_sending_procs`: a sender proxy gives up the commands for a node that is not connected any
more. The descriptors queued for the node leave the queue; a local process among them is woken up
with an error, unless it has another reason to sleep. A command that the switch does not know ends
the loop.
-/

namespace MolIpc

namespace Proc

def leaveSproxy (p : Proc) : Proc :=
  { p with proxy := noneEp, rts := { p.rts with rmtoper := false } }

def flushRemote (p : Proc) : Proc :=
  { p with rts := { remote := true }, getfrom := noneEp, sendto := noneEp }

/-- The switch on the command of a local process. The requester of a copy leaves the copy. -/
def flushSent (p : Proc) : Option Proc :=
  match p.rmtcmd.cmd with
  | .sndrecMsg => some p.endReceive.endSend
  | .sendMsg | .ntfyMsg | .replyMsg => some p.endSend
  | .copyinData | .copyinRqst | .copylclRqst | .copyrmtRqst =>
    some (if p.rts.oncopy ∧ p.endpoint = p.rmtcmd.vcopy.rqtr then
      { p with rts := { p.rts with oncopy := false } } else p)
  | _ => none

end Proc

namespace Node

/-- The loop over the queue, which the proxy releases and takes again in each turn. -/
def flushSendingLoop (nodeid : ℤ) : List ℤ → Node → Node × ℤ
  | [], n => (n, EMol.ok)
  | x :: xs, n =>
    if (n.proc x).rmtcmd.dnode ≠ nodeid then flushSendingLoop nodeid xs n
    else
      let n := (n.unlink x).modProc x Proc.leaveSproxy
      if (n.proc x).rts.remote then flushSendingLoop nodeid xs (n.modProc x Proc.flushRemote)
      else
        match (n.proc x).flushSent with
        | none => (n, EMol.badrequest)
        | some p => flushSendingLoop nodeid xs (n.modProc x fun _ => p.upIfReady EMol.notconn)

/-- `flush_sending_procs(nodeid, px)`. -/
def flushSendingProcs (n : Node) (nodeid px : ℤ) : Node × ℤ :=
  flushSendingLoop nodeid (n.sproxy px).list n

end Node

/-! ### One descriptor -/

namespace Proc

def flushed (p : Proc) : Proc :=
  if p.rts.remote then p.leaveSproxy.flushRemote
  else (p.leaveSproxy.flushSent.getD p.leaveSproxy).upIfReady EMol.notconn

def Known (p : Proc) : Prop := p.rts.remote = true ∨ p.leaveSproxy.flushSent.isSome

/-- A local process waits with one of eight commands and has no bit but `RMTOPER` and those of the
command: `SENDING` and, for a sendrec, `RECEIVING`, or `ONCOPY` of its own copy. -/
def Wakeable (p : Proc) : Prop :=
  p.rts.remote = true ∨
    match p.rmtcmd.cmd with
    | .sndrecMsg =>
      { p.rts with rmtoper := false, sending := false, receiving := false } = Rts.running
    | .sendMsg | .ntfyMsg | .replyMsg =>
      { p.rts with rmtoper := false, sending := false } = Rts.running
    | .copyinData | .copyinRqst | .copylclRqst | .copyrmtRqst =>
      { p.rts with
        rmtoper := false
        oncopy := p.rts.oncopy && p.endpoint != p.rmtcmd.vcopy.rqtr } = Rts.running
    | _ => False

theorem wakeable_iff (p : Proc) : p.Wakeable ↔
    p.rts.remote = true ∨ p.leaveSproxy.flushSent.any fun q => q.rts = Rts.running := by
  refine or_congr Iff.rfl ?_
  by_cases hown : p.rts.oncopy = true ∧ p.endpoint = p.rmtcmd.vcopy.rqtr
  · cases hcmd : p.rmtcmd.cmd <;>
      simp [flushSent, leaveSproxy, endSend, endReceive, hcmd, hown]
  · have hbit : (p.rts.oncopy && p.endpoint != p.rmtcmd.vcopy.rqtr) = p.rts.oncopy := by
      cases ho : p.rts.oncopy <;> simp_all
    cases hcmd : p.rmtcmd.cmd <;>
      simp [flushSent, leaveSproxy, endSend, endReceive, hcmd, hown, hbit]

instance (p : Proc) : Decidable p.Wakeable := decidable_of_iff' _ p.wakeable_iff

theorem Wakeable.known {p : Proc} (h : p.Wakeable) : p.Known :=
  (p.wakeable_iff.1 h).imp_right fun h => by
    cases hf : p.leaveSproxy.flushSent with
    | none => simp [hf] at h
    | some q => rfl

theorem flushSent_inv {p q : Proc} (h : p.flushSent = some q) :
    q.list = p.list ∧ q.rmtcmd = p.rmtcmd ∧ q.pseudosem = p.pseudosem := by
  unfold flushSent at h
  split at h
  case h_9 => cases h
  all_goals obtain rfl := Option.some.inj h
  all_goals first
    | exact ⟨rfl, rfl, rfl⟩
    | split <;> exact ⟨rfl, rfl, rfl⟩

theorem flushed_list (p : Proc) : p.flushed.list = p.list := by
  unfold flushed
  split
  · rfl
  · rw [upIfReady_list]
    cases hf : p.leaveSproxy.flushSent with
    | none => rfl
    | some q => exact (flushSent_inv hf).1

theorem flushed_woken_iff {p : Proc} (hp : p.rts.remote = false) (hk : p.Known) :
    (p.flushed.rts = Rts.running ∧ p.flushed.rcode = EMol.notconn ∧
      p.flushed.pseudosem = p.pseudosem + 1) ↔ p.Wakeable := by
  obtain ⟨q, hq⟩ : ∃ q, p.leaveSproxy.flushSent = some q :=
    Option.isSome_iff_exists.1 (hk.resolve_left (by simp [hp]))
  have hsem : q.pseudosem = p.pseudosem := (flushSent_inv hq).2.2
  have hflush : p.flushed = q.upIfReady EMol.notconn := by
    simp [flushed, hp, hq]
  have hwake : p.Wakeable ↔ q.rts = Rts.running := by
    simp [wakeable_iff, hp, hq]
  rw [hflush, hwake, upIfReady_rts]
  constructor
  · exact fun h => h.1
  · intro h
    unfold upIfReady
    rw [if_pos h]
    exact ⟨h, rfl, by rw [← hsem]; rfl⟩

end Proc

namespace Node

/-! ### The loop -/

section Loop

variable {n : Node} {nodeid x : ℤ}

theorem unlink_proc_eq (h : ∀ q, x ∉ (n.proc q).list) : (n.unlink x).proc = n.proc := by
  funext q
  have hl : (n.proc q).list.filter (· ≠ x) = (n.proc q).list := by
    rw [List.filter_eq_self]
    intro y hy
    simp only [decide_eq_true_eq]
    rintro rfl
    exact h q hy
  show { n.proc q with list := (n.proc q).list.filter (· ≠ x) } = n.proc q
  rw [hl]

theorem modProc_modProc (m : Node) (f g h : Proc → Proc) (he : g (f (m.proc x)) = h (m.proc x)) :
    (m.modProc x f).modProc x g = m.modProc x h := by
  simp [modProc, he]

theorem flushSendingLoop_cons (hx : (n.proc x).rmtcmd.dnode = nodeid) (hk : (n.proc x).Known)
    (hl : ∀ q, x ∉ (n.proc q).list) (xs : List ℤ) :
    flushSendingLoop nodeid (x :: xs) n =
      flushSendingLoop nodeid xs ((n.unlink x).modProc x Proc.flushed) := by
  have hproc := unlink_proc_eq hl
  rw [flushSendingLoop, if_neg (not_not_intro hx)]
  dsimp only
  rw [modProc_same, hproc]
  have hrem : (n.proc x).leaveSproxy.rts.remote = (n.proc x).rts.remote := rfl
  by_cases hr : (n.proc x).rts.remote = true
  · rw [if_pos (hrem.trans hr), modProc_modProc _ _ _ Proc.flushed]
    rw [hproc, Proc.flushed, if_pos hr]
  · rw [if_neg (by rw [hrem]; exact hr)]
    obtain ⟨q, hq⟩ := Option.isSome_iff_exists.1 (hk.resolve_left hr)
    rw [hq]
    dsimp only
    rw [modProc_modProc _ _ _ Proc.flushed]
    rw [hproc, Proc.flushed, if_neg hr, hq]
    rfl

theorem flushSendingLoop_unknown (xs : List ℤ) : ∀ n : Node, xs.Nodup →
    (∀ x ∈ xs, ∀ q, x ∉ (n.proc q).list) →
    (∃ x ∈ xs, (n.proc x).rmtcmd.dnode = nodeid ∧ ¬ (n.proc x).Known) →
    (flushSendingLoop nodeid xs n).2 = EMol.badrequest := by
  induction xs with
  | nil => simp
  | cons x xs ih =>
    intro n hd hl ⟨y, hy, hdn, hu⟩
    rw [List.nodup_cons] at hd
    by_cases hx : (n.proc x).rmtcmd.dnode = nodeid
    swap
    · rw [flushSendingLoop, if_pos hx]
      refine ih n hd.2 (fun z hz => hl z (List.mem_cons_of_mem _ hz)) ⟨y, ?_, hdn, hu⟩
      exact (List.mem_cons.1 hy).resolve_left fun he => hx (he ▸ hdn)
    have hproc := unlink_proc_eq (hl x List.mem_cons_self)
    by_cases hk : (n.proc x).Known
    · have hyx : y ≠ x := fun he => hu (he ▸ hk)
      rw [flushSendingLoop_cons hx hk (hl x List.mem_cons_self)]
      refine ih _ hd.2 (fun z hz q => ?_) ⟨y, (List.mem_cons.1 hy).resolve_left hyx, ?_⟩
      · rw [modProc_field x q Proc.list Proc.flushed_list, hproc]
        exact hl z (List.mem_cons_of_mem _ hz) q
      · rw [modProc_of_ne _ _ hyx, hproc]
        exact ⟨hdn, hu⟩
    · unfold Proc.Known at hk
      rw [not_or] at hk
      rw [flushSendingLoop, if_neg (not_not_intro hx)]
      dsimp only
      rw [modProc_same, hproc]
      have hrem : (n.proc x).leaveSproxy.rts.remote = (n.proc x).rts.remote := rfl
      rw [if_neg (by rw [hrem]; exact hk.1), Option.not_isSome_iff_eq_none.1 hk.2]

theorem flushSendingLoop_spec (xs : List ℤ) : ∀ n : Node, xs.Nodup →
    (∀ x ∈ xs, ∀ q, x ∉ (n.proc q).list) →
    (∀ x ∈ xs, (n.proc x).rmtcmd.dnode = nodeid → (n.proc x).Known) →
    (flushSendingLoop nodeid xs n).2 = EMol.ok ∧
    (∀ q, (flushSendingLoop nodeid xs n).1.proc q =
      if q ∈ xs ∧ (n.proc q).rmtcmd.dnode = nodeid then (n.proc q).flushed else n.proc q) ∧
    ∀ q, ((flushSendingLoop nodeid xs n).1.sproxy q).list =
      (n.sproxy q).list.filter fun y => ¬ (y ∈ xs ∧ (n.proc y).rmtcmd.dnode = nodeid) := by
  induction xs with
  | nil => simp [flushSendingLoop]
  | cons x xs ih =>
    intro n hd hl hk
    rw [List.nodup_cons] at hd
    have hlx := hl x List.mem_cons_self
    by_cases hx : (n.proc x).rmtcmd.dnode = nodeid
    swap
    · rw [flushSendingLoop, if_pos hx]
      obtain ⟨h1, h2, h3⟩ := ih n hd.2 (fun z hz => hl z (List.mem_cons_of_mem _ hz))
        fun z hz => hk z (List.mem_cons_of_mem _ hz)
      have hmem : ∀ q, q ∈ x :: xs ∧ (n.proc q).rmtcmd.dnode = nodeid ↔
          q ∈ xs ∧ (n.proc q).rmtcmd.dnode = nodeid := by
        intro q
        constructor
        · rintro ⟨hq, hqd⟩
          exact ⟨(List.mem_cons.1 hq).resolve_left fun he => hx (he ▸ hqd), hqd⟩
        · exact fun h => ⟨List.mem_cons_of_mem _ h.1, h.2⟩
      simp only [hmem]
      exact ⟨h1, h2, h3⟩
    have hproc := unlink_proc_eq hlx
    rw [flushSendingLoop_cons hx (hk x List.mem_cons_self hx) hlx]
    have hne : ∀ {z}, z ∈ xs → z ≠ x := fun hz he => hd.1 (he ▸ hz)
    have hsame : ∀ {z}, z ≠ x → ((n.unlink x).modProc x Proc.flushed).proc z = n.proc z := by
      intro z hz
      rw [modProc_of_ne _ _ hz, hproc]
    obtain ⟨h1, h2, h3⟩ := ih ((n.unlink x).modProc x Proc.flushed) hd.2
      (fun z hz q => by
        rw [modProc_field x q Proc.list Proc.flushed_list, hproc]
        exact hl z (List.mem_cons_of_mem _ hz) q)
      (fun z hz => by
        rw [hsame (hne hz)]
        exact hk z (List.mem_cons_of_mem _ hz))
    refine ⟨h1, fun q => ?_, fun q => ?_⟩
    · rw [h2]
      by_cases hq : q = x
      · subst hq
        rw [if_neg fun h => hd.1 h.1, if_pos ⟨List.mem_cons_self, hx⟩, modProc_same, hproc]
      · simp only [hsame hq, List.mem_cons, hq, false_or]
    · rw [h3]
      have hlist : ((n.unlink x).sproxy q).list = (n.sproxy q).list.filter (· ≠ x) := rfl
      rw [modProc_sproxy, hlist, List.filter_filter]
      refine List.filter_congr fun y _ => ?_
      by_cases hy : y = x
      · simp [hy, hx]
      · rw [hsame hy]
        simp [hy]

end Loop

/-! ### The queue of a proxy -/

structure QueueLinks (n : Node) (px : ℤ) : Prop where
  nodup : (n.sproxy px).list.Nodup
  only (x : ℤ) : x ∈ (n.sproxy px).list → ∀ q, x ∉ (n.proc q).list

/-- The descriptors for the node have left the queue, nothing else has changed, and the local ones
have been woken up. -/
structure Flushed (n : Node) (nodeid px : ℤ) (out : Node × ℤ) : Prop where
  ret : out.2 = EMol.ok
  list : (out.1.sproxy px).list =
    (n.sproxy px).list.filter fun x => (n.proc x).rmtcmd.dnode ≠ nodeid
  other (q : ℤ) : ¬ (q ∈ (n.sproxy px).list ∧ (n.proc q).rmtcmd.dnode = nodeid) →
    out.1.proc q = n.proc q
  woken (x : ℤ) : x ∈ (n.sproxy px).list → (n.proc x).rmtcmd.dnode = nodeid →
    (n.proc x).rts.remote = false →
    (out.1.proc x).rts = Rts.running ∧ (out.1.proc x).rcode = EMol.notconn ∧
      (out.1.proc x).pseudosem = (n.proc x).pseudosem + 1

/-- **A node that is disconnected loses its queue**, and each process in it is woken up, iff the
loop knows the command of each local process and clears its last bit. -/
theorem flushSendingProcs_flushed_iff {n : Node} {px : ℤ} (h : QueueLinks n px) (nodeid : ℤ) :
    Flushed n nodeid px (n.flushSendingProcs nodeid px) ↔
      ∀ x ∈ (n.sproxy px).list, (n.proc x).rmtcmd.dnode = nodeid → (n.proc x).Wakeable := by
  by_cases hk : ∀ x ∈ (n.sproxy px).list, (n.proc x).rmtcmd.dnode = nodeid → (n.proc x).Known
  · obtain ⟨hret, hproc, hlist⟩ := flushSendingLoop_spec _ n h.nodup h.only hk
    have hmem : ∀ x ∈ (n.sproxy px).list, (n.proc x).rmtcmd.dnode = nodeid →
        (n.flushSendingProcs nodeid px).1.proc x = (n.proc x).flushed :=
      fun x hx hd => (hproc x).trans (if_pos ⟨hx, hd⟩)
    constructor
    · intro hf x hx hd
      by_cases hr : (n.proc x).rts.remote = true
      · exact .inl hr
      · rw [Bool.not_eq_true] at hr
        have hw := hf.woken x hx hd hr
        rw [hmem x hx hd] at hw
        exact (Proc.flushed_woken_iff hr (hk x hx hd)).1 hw
    · intro hw
      refine ⟨hret, ?_, fun q hq => (hproc q).trans (if_neg hq), fun x hx hd hr => ?_⟩
      · refine (hlist px).trans (List.filter_congr fun y hy => ?_)
        simp [hy]
      · rw [hmem x hx hd]
        exact (Proc.flushed_woken_iff hr (hk x hx hd)).2 (hw x hx hd)
  · -- the loop ends with an error
    refine iff_of_false (fun hf => ?_) fun hw => hk fun x hx hd => (hw x hx hd).known
    simp only [not_forall] at hk
    obtain ⟨x, hx, hd, hu⟩ := hk
    have hbad := flushSendingLoop_unknown _ n h.nodup h.only ⟨x, hx, hd, hu⟩
    exact absurd (hbad.symm.trans hf.ret) (by decide)

/-! ### A copy from the other node -/

def flushSample (cmd : Option Cmd) : Node where
  conf := Conf.sample 0
  proc := fun q =>
    if q = 5 then
      { Proc.sample 0 5 { sending := cmd.isSome, rmtoper := cmd.isSome } with
        rmtcmd := { cmd := cmd.getD .none, dnode := 1 } }
    else if q = 6 then Proc.sample 1 6 { remote := true }
    else {}
  sproxy := fun q =>
    { Proc.sampleProxy q with list := if q = 1 ∧ cmd.isSome then [5] else [] }
  rproxy := Proc.sampleProxy

theorem flushSample_list (cmd : Option Cmd) (q : ℤ) : ((flushSample cmd).proc q).list = [] := by
  simp only [flushSample]
  split_ifs <;> rfl

/-- The sender of a message is woken up. -/
theorem flush_wakes_sender :
    QueueLinks (flushSample (some .sendMsg)) 1 ∧
      Flushed (flushSample (some .sendMsg)) 1 1
        ((flushSample (some .sendMsg)).flushSendingProcs 1 1) := by
  have hlist : ((flushSample (some .sendMsg)).sproxy 1).list = [5] := rfl
  have hl : QueueLinks (flushSample (some .sendMsg)) 1 := by
    refine ⟨by rw [hlist]; decide, fun x _ q => ?_⟩
    rw [flushSample_list]
    exact List.not_mem_nil
  refine ⟨hl, (flushSendingProcs_flushed_iff hl 1).2 fun x hx _ => ?_⟩
  rw [hlist, List.mem_singleton] at hx
  subst hx
  decide

/-- The process 5 copies from 6 of node 1. The loop does not know the command: it takes 5 off the
queue and ends with an error, and 5 sleeps on. -/
theorem flush_forgets_copy :
    ∃ n next, (flushSample none).vcopyStart 5 6 0 5 0 100 (fun _ => 0) = some (n, next) ∧
      QueueLinks n 1 ∧ (n.sproxy 1).list = [5] ∧ (n.proc 5).rmtcmd.dnode = 1 ∧
      (n.flushSendingProcs 1 1).2 = EMol.badrequest ∧
      ((n.flushSendingProcs 1 1).1.sproxy 1).list = [] ∧
      ((n.flushSendingProcs 1 1).1.proc 5).pseudosem = -1 ∧
      ((n.flushSendingProcs 1 1).1.proc 5).rts = Rts.onlyOncopy ∧
      ¬ Flushed n 1 1 (n.flushSendingProcs 1 1) := by
  let v : VcopyCall := { src := 6, dst := 5, saddr := 0, daddr := 0, bytes := 100 }
  have hs : (flushSample none).vcopyStart 5 6 0 5 0 100 (fun _ => 0) =
      some ((flushSample none).vcopyChecked 5 v fun _ => 0) := rfl
  have hc : (flushSample none).vcopyChecked 5 v (fun _ => 0) = _ :=
    vcopyChecked_of_ok (by decide) (by decide)
  have hb : ((flushSample none).vcopyEnter 5 v).vcopyBody 5 v (fun _ => 0) =
      ((flushSample none).vcopyEnter 5 v).vcopyIssue 5 v := by
    rw [vcopyBody, if_neg (by decide)]
    exact if_neg (by decide)
  have hn := vcopyIssue_of_up (n := (flushSample none).vcopyEnter 5 v) (c := 5) (v := v)
    (by decide) rfl (by decide)
  have hlist : ∀ q, (((flushSample none).vcopyEnter 5 v).proc q).list = [] := by
    intro q
    refine (modProc_field 5 q Proc.list fun _ => rfl).trans ?_
    rw [setOncopy_proc, setOncopy_proc, setOncopy_proc]
    exact flushSample_list none q
  rw [hs, hc, hb, hn]
  refine ⟨_, _, rfl, ⟨by decide, fun x _ q => ?_⟩, rfl, rfl, by decide, by decide,
    by decide, by decide, fun hf => absurd hf.ret (by decide)⟩
  refine List.eq_nil_iff_forall_not_mem.1 (Eq.trans ?_ (hlist q)) x
  rw [modSproxy_proc]
  refine modProc_field 5 q Proc.list ?_
  exact fun _ => rfl

end Node

end MolIpc
