import MolIpc.Ipc.Asleep
import MolIpc.Ipc.SlotUse
import MolIpc.Proxy.Get2rmt
import Mathlib.Data.Set.Basic

/-!
What the proxies and the administrators may do to a process that sleeps in a call, and what any
step of a node comes to for it (`disturbs_act`). The run of one call is then made of the steps of
the others and of the wake-ups of the caller.
-/

namespace MolIpc

open Relation Sections

variable {n : Node} {c : ℤ}

/-! ### Commands of other nodes -/

namespace Node

variable {px : ℤ}

/-- Neither the source nor the requester of a copy is the sleeper, and the message has the source
that it comes from. -/
structure Foreign (n : Node) (c : ℤ) (h : Hdr) : Prop where
  src : endpointP h.src ≠ c
  rqtr : h.cmd = .copyinRqst → endpointP h.vcopy.rqtr ≠ c
  honest : h.cmd.isMessage = true → h.msg.source = (n.proc (endpointP h.src)).endpoint

theorem disturbs_put2lcl {cp : ℤ} {h : Hdr} {pay : Mem} {r : Node × ℤ} (hf : Foreign n c h)
    (hc : (n.proc c).rts.remote = false) (heq : n.put2lcl px h pay cp = some r) :
    Disturbs c (h.aims c cp ((n.proc c).waitsFor h.msg.source)) n r.1 := by
  refine (edits_put2lcl heq).disturbs ?_ ?_ hc
  · rintro (hx | ⟨hcmd, hx⟩)
    · exact hf.src hx.symm
    · exact hf.rqtr hcmd hx.symm
  · exact fun hx => hx.2.2 (hf.honest hx.2.1)

/-! ### Sender proxies -/

/-- What the turn of a descriptor in the hands of a sender proxy is good for: the sleeper's own
command is sent or given up. The results are error codes. -/
def emitAims (c x ret cp : ℤ) (cmd : Cmd) : Set Kind :=
  { k | x = c ∧ (k = .out ∨ k = .ready ∧ cmd = .ntfyMsg ∨ k = .lost ∧ (0 < ret ∨ 0 < cp)) }

section Get2rmt

variable {c x ret cp code : ℤ} {cmd : Cmd} {n m : Node} {pay : Mem} {f : Proc → Proc}
  {r : Node × Mem × ℤ}

theorem disturbs_dequeue {K : Set Kind} {r : Node × ℤ × ℤ} (h : n.get2rmtDequeue px = some r) :
    Disturbs c K n r.1 := by
  unfold get2rmtDequeue at h
  split at h <;> cases h
  exact (Disturbs.refl n).unlink _

theorem Disturbs.handled (h : Disturbs c (emitAims c x ret cp cmd) n m) (hl : ∀ p, (f p).heads = p.heads)
    (hb : ∀ p, (f p).rts.waitmigr = true → p.rts.waitmigr = true)
    (hd : x = c → Chgs (emitAims c c ret cp cmd) (m.proc c) (f (m.proc c))) :
    Disturbs c (emitAims c x ret cp cmd) n (m.modProc x f) := by
  by_cases hx : x = c
  · subst hx
    have hheads := fun q => Proc.heads_eq (modProc_field (n := m) x q Proc.heads hl)
    refine h.trans ⟨?_, fun q => ?_, fun _ => id, fun q => ?_, fun q => ?_, ?_, fun ho _ => ?_⟩
    · rw [modProc_same]
      exact hd rfl
    · rw [(hheads q).1]
      exact id
    · rw [(hheads q).2.1]
    · rw [(hheads q).2.2]
      exact id
    · rw [modProc_same]
      exact hb _
    · exact absurd ⟨rfl, .inl rfl⟩ ho
  · exact h.other hx hl

theorem Disturbs.giveUp (h : Disturbs c (emitAims c x ret cp cmd) n m)
    (hc : (n.proc c).rts.remote = false) (hcode : code < 0 ∨ 0 < ret ∨ 0 < cp) :
    Disturbs c (emitAims c x ret cp cmd) n (m.get2rmtGiveUp x code) := by
  unfold get2rmtGiveUp
  split
  · rename_i hr
    exact h.other (ne_of_remote (h.isLocal hc) hr) fun _ => by rfl
  · refine h.handled (fun _ => by rfl) (fun _ hw => by cases hw) fun _ => ?_
    rcases hcode with hneg | hpos
    · exact .one (.dropped _ code (h.isLocal hc) hneg) ⟨rfl, .inl rfl⟩
    · exact .one (.lost _ code (h.isLocal hc)) ⟨rfl, .inr (.inr ⟨rfl, hpos⟩)⟩

theorem Disturbs.close (h : Disturbs c (emitAims c x ret cp cmd) n r.1)
    (hc : (n.proc c).rts.remote = false) (hcode : r.2.2 ≠ EMol.ok → r.2.2 < 0 ∨ 0 < cp) :
    Disturbs c (emitAims c x ret cp cmd) n (get2rmtClose x r).1 := by
  unfold get2rmtClose
  split
  · rename_i hne
    exact h.giveUp hc ((hcode hne).imp_right .inr)
  · dsimp only [get2rmtDone]
    exact h.frame x fun _ => by rfl

theorem disturbs_get2rmtAck (h : n.get2rmtAck x pay cp = some r) :
    Disturbs c (emitAims c x ret cp cmd) n r.1 :=
  get2rmtAck_keeps h (.refl n) fun i h => h.clearOncopy i

theorem disturbs_get2rmtRequest (hcmd : (n.proc x).rmtcmd.cmd = cmd) :
    Disturbs c (emitAims c x ret cp cmd) n (n.get2rmtRequest x pay cp).1 := by
  unfold get2rmtRequest
  dsimp only
  generalize hun : (n.modProc x fun p => { p with rts := { p.rts with rmtoper := false } }) = u
  have hu : Disturbs c (emitAims c x ret cp cmd) n u := by
    rw [← hun]
    exact (Disturbs.refl n).frame x fun _ => by rfl
  have hucmd : (u.proc x).rmtcmd.cmd = cmd := by
    rw [← hun, modProc_same]
    exact hcmd
  split
  · split <;> exact hu
  all_goals try exact hu
  all_goals dsimp only
  · refine hu.handled (fun _ => by rfl) (fun _ => id) fun _ => ?_
    exact .calm (.unsent _ _ rfl)
  · exact hu.frame x fun _ => by rfl
  · exact hu.frame x fun _ => by rfl
  · rename_i hntfy
    refine hu.handled (fun p => ?_) (fun p => ?_) fun _ => ?_
    · exact congrArg Prod.fst (Proc.upIfReady_links _ _)
    · rw [Proc.upIfReady_rts]
      exact id
    · refine ReflTransGen.trans (Chgs.calm (.unsent _ _ ?_)) (Chgs.one (.ready _ _) ?_)
      · rfl
      · exact ⟨rfl, .inr (.inl ⟨rfl, hucmd.symm.trans hntfy⟩)⟩

theorem neg_or_pos (h : code ≠ EMol.ok) : code < 0 ∨ 0 < code := by
  unfold EMol.ok at h
  omega

theorem get2rmtAck_code (h : n.get2rmtAck x pay cp = some r) (hne : r.2.2 ≠ EMol.ok) :
    r.2.2 < 0 ∨ 0 < cp := by
  unfold get2rmtAck at h
  dsimp only at h
  split at h
  all_goals repeat' split at h
  all_goals
    simp only [reduceCtorEq, Option.some.injEq] at h
    try subst h
    try dsimp only at hne ⊢
    try first
      | exact absurd rfl hne
      | exact .inl (by decide)
      | exact neg_or_pos hne

theorem get2rmtRequest_code (hne : (n.get2rmtRequest x pay cp).2.2 ≠ EMol.ok) :
    (n.get2rmtRequest x pay cp).2.2 < 0 ∨ 0 < cp := by
  revert hne
  unfold get2rmtRequest
  dsimp only
  split
  · split
    · have hbig : EMol.tooBig < 0 := by decide
      exact fun _ => .inl hbig
    · exact neg_or_pos
  all_goals first
    | exact fun hne => absurd rfl hne
    | exact fun _ => .inl (show EMol.inval < 0 by decide)

theorem disturbs_emit {r : Node × Mem × Got} (hc : (n.proc c).rts.remote = false)
    (h : n.get2rmtSend x ret pay cp = some r) :
    Disturbs c (emitAims c x ret cp (n.proc x).rmtcmd.cmd) n r.1 := by
  generalize hcmd : (n.proc x).rmtcmd.cmd = cmd
  unfold get2rmtSend at h
  split at h
  · cases h
    rename_i hret
    refine ((Disturbs.refl n).frame x fun _ => by rfl).giveUp hc ?_
    exact (neg_or_pos hret).imp_right .inl
  split at h
  · rename_i hr
    obtain ⟨a, ha, rfl⟩ := Option.map_eq_some_iff.mp h
    have hack : Disturbs c (emitAims c x ret cp cmd) n a.1 := disturbs_get2rmtAck ha
    have hcode := get2rmtAck_code ha
    split
    · exact hack.close hc hcode
    · refine Disturbs.close ?_ hc hcode
      dsimp only
      exact hack.other (ne_of_remote hc hr) fun _ => by rfl
  · unfold get2rmtSendRequest at h
    dsimp only at h
    split at h
    · cases h
    split at h
    · cases h
      dsimp only
      refine (Disturbs.refl n).handled (fun _ => ?_) (fun _ hw => ?_) fun _ => ?_
      · rfl
      · cases hw
      · have hframe : Chgs (emitAims c c ret cp cmd) (n.proc c)
            { n.proc c with sendto := noneEp, proxy := noneEp } := .frame rfl
        exact hframe.trans (Chgs.one (.dropped _ EMol.migrate hc (by decide)) ⟨rfl, .inl rfl⟩)
    · cases h
      refine Disturbs.close ?_ hc get2rmtRequest_code
      dsimp only
      exact (disturbs_get2rmtRequest hcmd).frame x fun _ => by rfl

end Get2rmt

/-! ### Unbinding -/

end Node

/-- The lock sections of `do_unbind`. -/
inductive UnbindSec
  | sender (x : ℤ)
  | scan (q : ℤ)
  | proxy
  | sending
  | waitmigr
  | migr (x : ℤ)
  | waitunbind
  | waiter (x : ℤ)
  | init
  deriving DecidableEq, Repr

namespace Node

def unbindSec (i : ℤ) : UnbindSec → Node → Node
  | .sender x => unbindSender i x
  | .scan q => unbindScan i q
  | .proxy => unbindProxy i
  | .sending => unbindSending i
  | .waitmigr => unbindWaitmigr i
  | .migr x => unbindMigr i x
  | .waitunbind => unbindWaitunbind i
  | .waiter x => unbindWaiter i x
  | .init => unbindInit i

section Unbind

variable {c i x code : ℤ} {K : Set Kind} {n m : Node} {f : Proc → Proc}

theorem Disturbs.tell (h : Disturbs c K n m) (hc : (n.proc c).rts.remote = false)
    (hcode : x = c → code < 0) (ack : Cmd) : Disturbs c K n (m.tell ack x i code) := by
  unfold Node.tell
  split
  · rename_i hr
    exact h.genericAck (ne_of_remote (h.isLocal hc) hr) _ _ _
  · exact h.modProc x (fun _ => by rfl) fun hx => .calm (.error _ code (hcode hx))

theorem Disturbs.unwait (h : Disturbs c K n m) (x : ℤ) (hl : ∀ p, (f p).heads = p.heads)
    (hb : ∀ p, (f p).rts.waitmigr = false)
    (hd : x = c → Chgs K (m.proc c) (f ((m.unlinkM x).proc c))) :
    Disturbs c K n ((m.unlinkM x).modProc x f) := by
  by_cases hx : x = c
  · subst hx
    have hheads := fun q => Proc.heads_eq (modProc_field (n := m.unlinkM x) x q Proc.heads hl)
    have hun : Disturbs x K m (m.unlinkM x) := (Disturbs.refl m).unlinkM x
    refine h.trans ⟨?_, fun q => ?_, fun _ => id, fun q => ?_, fun q => ?_, ?_, fun _ _ => .inr ?_⟩
    · rw [modProc_same]
      exact hd rfl
    · rw [(hheads q).1]
      exact hun.list q
    · rw [(hheads q).2.1]
      exact hun.mlist q
    · rw [(hheads q).2.2]
      exact hun.ulist q
    · rw [modProc_same, hb]
      exact fun hw => by cases hw
    · intro q hq
      rw [(hheads q).2.1] at hq
      exact of_decide_eq_true (List.mem_filter.mp hq).2 rfl
  · exact (h.unlinkM x).other hx hl

theorem disturbs_unbindSender (hc : (n.proc c).rts.remote = false) :
    Disturbs c K n (unbindSender i x n) := by
  refine Disturbs.tell ?_ hc (fun _ => by decide) _
  exact ((Disturbs.refl n).unlink x).modProc x (fun _ => by rfl) fun _ => .calm (.unsent _ _ rfl)

theorem disturbs_unbindScan (q : ℤ) (hc : (n.proc c).rts.remote = false) :
    Disturbs c K n (unbindScan i q n) := by
  unfold unbindScan
  split
  · exact .refl n
  have hbit : Disturbs c K n (unbindBit i q n) := by
    unfold unbindBit
    split
    · exact (Disturbs.refl n).frame q fun _ => by rfl
    · exact .refl n
  generalize unbindBit i q n = u at hbit ⊢
  unfold unbindReceiver
  split
  · split
    · rename_i hr
      have hq : q ≠ c := ne_of_remote (hbit.isLocal hc) hr
      exact (hbit.other hq fun _ => by rfl).genericAck hq _ _ _
    · refine hbit.modProc q (fun _ => by rfl) fun _ => ?_
      exact .calm (.error _ _ (by decide))
  · exact hbit

theorem disturbs_unbindSec {sec : UnbindSec} (hi : i ≠ c) (hc : (n.proc c).rts.remote = false)
    (hw : sec ≠ .waiter c) : Disturbs c K n (unbindSec i sec n) := by
  cases sec with
  | sender x => exact disturbs_unbindSender hc
  | scan q => exact disturbs_unbindScan q hc
  | proxy =>
    change Disturbs c K n (unbindProxy i n)
    unfold unbindProxy
    split
    · refine Disturbs.other ?_ hi fun _ => by rfl
      split
      · exact (Disturbs.refl n).unlink i
      · exact .refl n
    · exact .refl n
  | sending =>
    change Disturbs c K n (unbindSending i n)
    unfold unbindSending
    split
    · refine Disturbs.other ?_ hi fun _ => by rfl
      split
      · exact .refl n
      · exact (Disturbs.refl n).unlink i
    · exact .refl n
  | waitmigr =>
    change Disturbs c K n (unbindWaitmigr i n)
    unfold unbindWaitmigr
    split
    · exact ((Disturbs.refl n).unlinkM i).other hi fun _ => by rfl
    · exact .refl n
  | migr x =>
    refine Disturbs.tell ?_ hc (fun _ => by decide) _
    exact (Disturbs.refl n).unwait x (fun _ => by rfl) (fun _ => by rfl) fun _ => .frame rfl
  | waitunbind =>
    change Disturbs c K n (unbindWaitunbind i n)
    unfold unbindWaitunbind
    split
    · exact ((Disturbs.refl n).unlinkU i).other hi fun _ => by rfl
    · exact .refl n
  | waiter x =>
    have hx : x ≠ c := fun hx => hw (by rw [hx])
    refine Disturbs.tell ?_ hc (fun h => absurd h hx) _
    exact ((Disturbs.refl n).unlinkU x).other hx fun _ => by rfl
  | init => exact (Disturbs.refl n).init hi _

theorem disturbs_unbindOther (i sig : ℤ) : Disturbs c K n (n.unbindOther i sig).1 := by
  unfold unbindOther
  dsimp only
  split
  · dsimp only
    split
    · exact (Disturbs.refl n).frame i fun _ => by rfl
    · exact .refl n
  split
  · exact .refl n
  dsimp only
  split
  · exact (Disturbs.refl n).modProc i (fun _ => by rfl) fun _ => .calm (.error _ _ (by decide))
  · exact .refl n

end Unbind

/-! ### Binding -/

section Bind

variable {c : ℤ} {K : Set Kind} {n : Node} {oper : BindOper} {pid ep nodeid : ℤ} {env : BindEnv}

/-- **The first part of a bind**: a slot in use is taken over by a backup or a replica only. -/
theorem disturbs_bindOpen (hfree : (n.proc c).rts.slotFree = false)
    (h : endpointP ep ≠ c ∨ oper ≠ .bkupBind ∧ oper ≠ .replicaBind) :
    Disturbs c K n (n.bindOpen oper ep nodeid env).1 := by
  rcases bindOpen_cases n oper ep nodeid env with ⟨code, ho⟩ | ⟨-, hf, r, ho⟩
  · rw [ho]
    exact .refl n
  · rw [ho]
    refine (Disturbs.refl n).init ?_ _
    rintro rfl
    rcases hf with hf | hf | hf
    · simp [hfree] at hf
    · exact (h.resolve_left (not_not_intro rfl)).1 hf
    · exact (h.resolve_left (not_not_intro rfl)).2 hf

theorem disturbs_bindClose (node : ℤ) (h : endpointP ep ≠ c) :
    Disturbs c K n (n.bindClose oper pid ep env node).1 := by
  rcases bindClose_cases n oper pid ep env node with ⟨code, hc⟩ | ⟨r, hc⟩
  · rw [hc]
    exact .refl n
  · rw [hc]
    refine (Disturbs.refl n).other h fun p => ?_
    cases oper <;> rfl

theorem disturbs_autobind (hfree : (n.proc c).rts.slotFree = false) (lock : ℤ)
    (pairFree : Bool) : Disturbs c K n (n.autobind ep nodeid lock pairFree).1 := by
  unfold autobind
  dsimp only
  iterate 5
    split
    · exact .refl n
  rename_i hused
  have hi : endpointP ep ≠ c := by
    rintro rfl
    exact hused (by simp [hfree])
  have hinit := (Disturbs.refl (c := c) (K := K) n).init hi n.conf.dcid
  iterate 3
    split
    · exact hinit
  dsimp only
  exact hinit.other hi fun _ => by rfl

end Bind

/-! ### Migrations -/

def migrAims (n : Node) (c : ℤ) (oper : MigrOper) : Set Kind :=
  { k | oper = .commit ∧ (∃ q, c ∈ (n.proc q).list) ∧ k = .replay ∨
    oper = .rollback ∧ k = .ready }

section Migrate

variable {c i t x : ℤ} {K : Set Kind} {n m : Node} {env : MigrEnv}

section

variable (h : Disturbs c K n m)

include h

theorem Disturbs.flushMigr (i x : ℤ) : Disturbs c K n (m.flushMigr i x) := by
  unfold Node.flushMigr
  dsimp only
  split
  · refine h.unwait x (fun p => ?_) (fun p => ?_) fun _ => ?_
    · exact congrArg Prod.fst (Proc.upIfReady_links _ _)
    · exact congrArg Prod.snd (Proc.upIfReady_links _ _)
    · refine ReflTransGen.trans (Chgs.frame ?_) (Chgs.upIfReady_error _ (by decide))
      rfl
  · exact h.unlinkM x

theorem Disturbs.flushMigrList (i : ℤ) : Disturbs c K n (m.flushMigrList i) :=
  h.trans (foldl_related (R := Disturbs c K) .refl .trans
    (fun x _ u => (Disturbs.refl u).flushMigr i x) m)

theorem Disturbs.flushSender (hc : (n.proc c).rts.remote = false) (hK : x = c → .replay ∈ K) :
    Disturbs c K n (m.flushSender x) := by
  have hun := h.unlink x
  unfold Node.flushSender
  dsimp only
  split
  · refine hun.modProc x (fun p => ?_) fun hx => ?_
    · exact Proc.upIfReady_links _ _
    · exact .one (.replay _) (hK hx)
  · rename_i hr
    split
    · exact hun
    · exact hun.errorAck (ne_of_remote (hun.isLocal hc) (by simpa using hr)) _ _ _

theorem Disturbs.flushSendingList (hc : (n.proc c).rts.remote = false)
    (hK : (∃ q, c ∈ (n.proc q).list) → .replay ∈ K) (i : ℤ) :
    Disturbs c K n (m.flushSendingList i) := by
  have hturns : ∀ (l : List ℤ) (u : Node), (c ∈ l → .replay ∈ K) → Disturbs c K n u →
      Disturbs c K n (l.foldl (fun u x => u.flushSender x) u) := by
    intro l
    induction l with
    | nil => exact fun _ _ => id
    | cons x l ih =>
      intro u hl hu
      exact ih _ (fun hc => hl (List.mem_cons_of_mem x hc))
        (hu.flushSender hc fun hx => hl (hx ▸ List.mem_cons_self))
  exact hturns _ m (fun hl => hK ⟨i, h.list i hl⟩) h

theorem Disturbs.rollbackThread (hK : .ready ∈ K) (t : ℤ) :
    Disturbs c K n (m.rollbackThread t) := by
  have hmark : Disturbs c K n (m.modProc t Proc.unmark) :=
    h.frame t fun _ => by rfl
  refine (hmark.flushMigrList t).modProc t (fun p => p.upIfReady_links _) fun _ => ?_
  exact .one (.ready _ _) hK

theorem Disturbs.oldThread (hc : (n.proc c).rts.remote = false)
    (hK : (∃ q, c ∈ (n.proc q).list) → .replay ∈ K) (new : ℤ) (ht : t ≠ c) :
    Disturbs c K n (m.oldThread new t) := by
  have hleave : Disturbs c K n (m.modProc t (·.leave new)) := by
    refine h.other ht fun p => ?_
    unfold Proc.leave
    dsimp only
    split <;> rfl
  exact (hleave.flushSendingList hc hK t).flushMigrList t

end

theorem disturbs_oldThreads (hc : (n.proc c).rts.remote = false)
    (hK : (∃ q, c ∈ (n.proc q).list) → .replay ∈ K) (new : ℤ) (ts : List ℤ)
    (hts : c ∉ ts) : Disturbs c K n (ts.foldl (fun n t => n.oldThread new t) n) := by
  have hturns : ∀ (l : List ℤ) (u : Node), c ∉ l → Disturbs c K n u →
      Disturbs c K n (l.foldl (fun u t => u.oldThread new t) u) := by
    intro l
    induction l with
    | nil => exact fun _ _ => id
    | cons t l ih =>
      intro u hl hu
      rw [List.mem_cons, not_or] at hl
      exact ih _ hl.2 (hu.oldThread hc hK new (Ne.symm hl.1))
  exact hturns ts n hts (.refl n)

theorem disturbs_migrate {pid ep new : ℤ} {oper : MigrOper} (hc : (n.proc c).rts.remote = false)
    (hstay : oper = .commit → endpointP ep ≠ c ∧ c ∉ env.others) :
    Disturbs c (n.migrAims c oper) n (n.migrate env oper pid ep new).1 := by
  rcases migrate_tries n env oper pid ep new with ⟨-, hn⟩ | ⟨-, -, -, hm⟩
  · rw [hn]
    exact .refl n
  have hreplay : (∃ q, c ∈ (n.proc q).list) → .replay ∈ n.migrAims c .commit := fun hl =>
    .inl ⟨rfl, hl, rfl⟩
  generalize (n.migrate env oper pid ep new).1 = m at hm ⊢
  cases hm with
  | startRemote | rollbackRemote =>
    exact (Disturbs.refl n).frame _ fun _ => by rfl
  | start =>
    refine foldl_related (R := Disturbs c (n.migrAims c .start)) .refl .trans (fun t _ u => ?_) n
    exact (Disturbs.refl u).frame t fun _ => by rfl
  | rollback =>
    exact foldl_related (R := Disturbs c (n.migrAims c .rollback)) .refl .trans
      (fun t _ u => (Disturbs.refl u).rollbackThread (.inr ⟨rfl, rfl⟩) t) n
  | old =>
    obtain ⟨hi, hts⟩ := hstay rfl
    have hnot : c ∉ endpointP ep :: env.others :=
      List.not_mem_cons_of_ne_of_not_mem (Ne.symm hi) hts
    exact (disturbs_oldThreads hc hreplay new _ hnot).other hi fun _ => by rfl
  | new =>
    have hi := (hstay rfl).1
    exact ((Disturbs.refl n).other hi fun _ => by rfl).other hi fun _ => by rfl
  | other =>
    have hi := (hstay rfl).1
    exact (((Disturbs.refl n).frame _ fun _ => by rfl).flushMigrList _).other hi
      fun _ => by rfl

end Migrate

/-! ### The steps of a node -/

end Node

/-- The steps of the processes, of the proxies and of the administrators of a node. -/
inductive NodeAct
  | call (q : ℤ) (op : Op) (m : Message) (timeout cp : ℤ)
  | wake (q : ℤ) (op : Op) (wait : Wait) (timeout w cp : ℤ)
  | vcopy (q srcEp : ℤ) (saddr : ℕ) (dstEp : ℤ) (daddr : ℕ) (bytes : ℤ) (cp : ℕ → ℤ)
  | vcopyWake (q : ℤ) (next : VcopyNext) (w : ℤ) (cp : ℕ → ℤ)
  | put2lcl (px : ℤ) (h : Hdr) (pay : Mem) (cp : ℤ)
  | dequeue (px : ℤ)
  | emit (x ret : ℤ) (pay : Mem) (cp : ℤ)
  | unbindOther (i sig : ℤ)
  | unbindSec (i : ℤ) (sec : UnbindSec)
  | bindOpen (oper : BindOper) (ep nodeid : ℤ) (env : BindEnv)
  | bindClose (oper : BindOper) (pid ep : ℤ) (env : BindEnv) (node : ℤ)
  | autobind (ep nodeid lock : ℤ) (pairFree : Bool)
  | migrate (env : MigrEnv) (oper : MigrOper) (pid ep new : ℤ)

namespace Node

variable {a : NodeAct}

def act (n : Node) : NodeAct → Option Node
  | .call q op m timeout cp => (n.call q op m timeout cp).map Prod.fst
  | .wake q op wait timeout w cp => (n.wake q op wait timeout w cp).map Prod.fst
  | .vcopy q srcEp saddr dstEp daddr bytes cp =>
    (n.vcopyStart q srcEp saddr dstEp daddr bytes cp).map Prod.fst
  | .vcopyWake q next w cp => some (n.vcopyWake q next w cp).1
  | .put2lcl px h pay cp => (n.put2lcl px h pay cp).map Prod.fst
  | .dequeue px => (n.get2rmtDequeue px).map Prod.fst
  | .emit x ret pay cp => (n.get2rmtSend x ret pay cp).map Prod.fst
  | .unbindOther i sig => some (n.unbindOther i sig).1
  | .unbindSec i sec => some (unbindSec i sec n)
  | .bindOpen oper ep nodeid env => some (n.bindOpen oper ep nodeid env).1
  | .bindClose oper pid ep env node => some (n.bindClose oper pid ep env node).1
  | .autobind ep nodeid lock pairFree => some (n.autobind ep nodeid lock pairFree).1
  | .migrate env oper pid ep new => some (n.migrate env oper pid ep new).1

def aims (n : Node) (c : ℤ) : NodeAct → Set Kind
  | .call q op _ _ cp | .wake q op _ _ _ cp => op.aims c cp (n.heeds c q op)
  | .vcopy q srcEp saddr dstEp daddr bytes _ =>
    (n.vcopyArgs q srcEp saddr dstEp daddr bytes).aims c
  | .vcopyWake _ next _ _ => next.aims c
  | .put2lcl _ h _ cp => h.aims c cp ((n.proc c).waitsFor h.msg.source)
  | .emit x ret _ cp => emitAims c x ret cp (n.proc x).rmtcmd.cmd
  | .migrate _ oper .. => n.migrAims c oper
  | _ => ∅

def emits (c : ℤ) : NodeAct → Bool
  | .emit x .. => x = c
  | _ => false

theorem out_notMem_aims (h : emits c a = false) :
    Kind.out ∉ n.aims c a ∧ Kind.lost ∉ n.aims c a := by
  have hcase : ∀ k ∈ n.aims c a, k ≠ .out ∧ k ≠ .lost := by
    intro k hk
    cases a with
    | emit x ret pay cp =>
      obtain ⟨rfl, -⟩ := hk
      simp [emits] at h
    | call q op m timeout cp | wake q op wait timeout w cp =>
      cases op <;> grind [aims, Op.aims]
    | vcopy => grind [aims, VcopyCall.aims]
    | vcopyWake q next w cp => cases next <;> grind [aims, VcopyNext.aims, VcopyCall.aims]
    | put2lcl px hdr pay cp => grind [aims, Hdr.aims]
    | migrate => grind [aims, migrAims]
    | _ => exact absurd hk (Set.notMem_empty k)
  exact ⟨fun ho => (hcase _ ho).1 rfl, fun ho => (hcase _ ho).2 rfl⟩

/-- A step of another: it sends no command of the sleeper and does not unbind it; nobody takes over
its slot, migrates it or believes that it waits for an unbinding. -/
def ByOthers (n : Node) (c : ℤ) : NodeAct → Prop
  | .call q .. | .wake q .. | .vcopy q .. | .vcopyWake q .. => q ≠ c
  | .put2lcl _ h _ _ => Foreign n c h
  | .unbindSec i sec => i ≠ c ∧ sec ≠ .waiter c
  | .bindOpen oper ep _ _ => endpointP ep ≠ c ∨ oper ≠ .bkupBind ∧ oper ≠ .replicaBind
  | .bindClose _ _ ep _ _ => endpointP ep ≠ c
  | .migrate env oper _ ep _ => oper = .commit → endpointP ep ≠ c ∧ c ∉ env.others
  | _ => True

theorem disturbs_act {n' : Node} (ha : n.ByOthers c a) (hc : (n.proc c).rts.remote = false)
    (hfree : (n.proc c).rts.slotFree = false) (h : n.act a = some n') :
    Disturbs c (n.aims c a) n n' := by
  cases a with
  | call q op m timeout cp =>
    obtain ⟨r, hr, rfl⟩ := Option.map_eq_some_iff.mp h
    exact disturbs_call ha hc hr
  | wake q op wait timeout w cp =>
    obtain ⟨r, hr, rfl⟩ := Option.map_eq_some_iff.mp h
    exact disturbs_wake ha hc hr
  | vcopy q srcEp saddr dstEp daddr bytes cp =>
    obtain ⟨r, hr, rfl⟩ := Option.map_eq_some_iff.mp h
    exact disturbs_vcopyStart ha hc hr
  | vcopyWake q next w cp =>
    cases h
    exact disturbs_vcopyWake ha hc next w cp
  | put2lcl px hdr pay cp =>
    obtain ⟨r, hr, rfl⟩ := Option.map_eq_some_iff.mp h
    exact disturbs_put2lcl ha hc hr
  | dequeue px =>
    obtain ⟨r, hr, rfl⟩ := Option.map_eq_some_iff.mp h
    exact disturbs_dequeue hr
  | emit x ret pay cp =>
    obtain ⟨r, hr, rfl⟩ := Option.map_eq_some_iff.mp h
    exact disturbs_emit hc hr
  | unbindOther i sig =>
    cases h
    exact disturbs_unbindOther i sig
  | unbindSec i sec =>
    cases h
    exact disturbs_unbindSec ha.1 hc ha.2
  | bindOpen oper ep nodeid env =>
    cases h
    exact disturbs_bindOpen hfree ha
  | bindClose oper pid ep env node =>
    cases h
    exact disturbs_bindClose node ha
  | autobind ep nodeid lock pairFree =>
    cases h
    exact disturbs_autobind hfree lock pairFree
  | migrate env oper pid ep new =>
    cases h
    exact disturbs_migrate hc ha

/-! ### The run of one call -/

end Node

/-- While a call of `c` is under way: a step of the others, or the end of a sleep of `c` with the
result `w`. -/
inductive CallLabel
  | other (a : NodeAct)
  | wake (w cp : ℤ)

/-- The node, and where the call of `c` with the given timeout has got to. -/
def callStep (c timeout : ℤ) (s : Node × Next) : CallLabel → Option (Node × Next)
  | .other a => (s.1.act a).map fun n => (n, s.2)
  | .wake w cp =>
    match s.2 with
    | .ret _ => none
    | .sleep op wait => s.1.wake c op wait timeout w cp

/-- A wait is interrupted, expires, or ends because `p_pseudosem` is not negative any more. -/
def Proc.mayWake (p : Proc) (timeout w : ℤ) : Prop :=
  w < 0 ∨ w = 0 ∧ 0 ≤ timeout ∨ 0 ≤ p.pseudosem

instance (p : Proc) (timeout w : ℤ) : Decidable (p.mayWake timeout w) := by
  unfold Proc.mayWake; infer_instance

section Sleep

variable {p : Proc} {timeout w : ℤ}

theorem Proc.sleepResult_eq_ok (hw : p.mayWake timeout w) (h : p.sleepResult timeout w = EMol.ok) :
    0 ≤ p.rcode ∧ 0 ≤ p.pseudosem := by
  unfold sleepResult at h
  split_ifs at h with h1 h2 h3
  · exact absurd h1 (by rw [h]; decide)
  · exact absurd h2 (by rw [h]; decide)
  · exact absurd h (by decide)
  · refine ⟨not_lt.mp h1, ?_⟩
    rcases hw with hw | hw | hw
    · exact absurd hw h2
    · exact absurd hw h3
    · exact hw

theorem Proc.sleepResult_neg (h : p.sleepResult timeout w ≠ EMol.ok) :
    p.sleepResult timeout w < 0 := by
  unfold sleepResult at h ⊢
  split_ifs at h ⊢ with h1 h2 h3
  · exact h1
  · exact h2
  · decide
  · exact absurd rfl h

end Sleep

end MolIpc
