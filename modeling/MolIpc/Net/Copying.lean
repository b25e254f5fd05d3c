import MolIpc.Net.Cluster
import MolIpc.Ipc.Vcopy

/-!
A remote copy in a cluster: the process `r` of node `a` is in `mm_vcopy`, and the proxies carry
its commands. Besides these steps the rest of the cluster may do anything that leaves the
processes of the copy alone.
-/

namespace MolIpc

theorem Mem.blit_blit (m s : Mem) (d sa k len : ℕ) :
    (m.blit d s sa k).blit (d + k) s (sa + k) len = m.blit d s sa (k + len) := by
  funext x
  simp only [Mem.blit]
  split_ifs <;> first | rfl | omega | (congr 1; omega)

theorem Mem.blit_payload (m pay s : Mem) (d sa len : ℕ) :
    m.blit d (pay.blit 0 s sa len) 0 len = m.blit d s sa len := by
  funext x
  simp only [Mem.blit]
  split_ifs <;> first | rfl | omega | (congr 1; omega)

@[simp] theorem Mem.blit_zero (m s : Mem) (d sa : ℕ) : m.blit d s sa 0 = m := by
  funext x
  simp only [Mem.blit]
  split_ifs
  · omega
  · rfl

structure CopyState where
  cl : Cluster
  pc : VcopyNext

namespace CopyState

variable (unbind : Node → ℤ → Node) (ours : ℤ → Bool) (a r : ℤ) {k j : ℕ} {s s' : CopyState}
  {c : Cluster}

/-- A step of a proxy with a command of the copy, or of the caller, when it has been woken up. -/
inductive Move : CopyState → CopyState → Prop
  | proxy {s : CopyState} {c' : Cluster} :
      Cluster.Own unbind ours s.cl c' → Move s { s with cl := c' }
  | wake {s : CopyState} {v : VcopyCall} {len w : ℤ} {cp : ℕ → ℤ} :
      s.pc = .sleep v len → 0 ≤ ((s.cl.node a).proc r).pseudosem → 0 < w →
      Move s ⟨s.cl.setNode a ((s.cl.node a).vcopyWake r s.pc w cp).1,
        ((s.cl.node a).vcopyWake r s.pc w cp).2⟩

inductive Run : ℕ → CopyState → CopyState → Prop
  | refl (s : CopyState) : Run 0 s s
  | move {k : ℕ} {s s' s'' : CopyState} :
      Run k s s' → Move unbind ours a r s' s'' → Run (k + 1) s s''
  | env {k : ℕ} {s s' : CopyState} {c' : Cluster} :
      Run k s s' → Cluster.Frame ours s'.cl c' → Run k s { s' with cl := c' }

variable {unbind ours a r}

theorem Run.trans {s'' : CopyState} (h₁ : Run unbind ours a r k s s')
    (h₂ : Run unbind ours a r j s' s'') : Run unbind ours a r (k + j) s s'' := by
  induction h₂ with
  | refl => exact h₁
  | move _ hm ih => exact .move (ih h₁) hm
  | env _ hf ih => exact .env (ih h₁) hf

/-- The index of `P` bounds the moves still to come: each move takes it down. -/
theorem Run.induction {P : ℕ → CopyState → Prop} {m : ℕ} (hrun : Run unbind ours a r k s s')
    (h0 : P m s) (hmove : ∀ j t t', P j t → Move unbind ours a r t t' → ∃ i < j, P i t')
    (henv : ∀ j t c', P j t → Cluster.Frame ours t.cl c' → P j { t with cl := c' }) :
    ∃ j, P j s' ∧ k + j ≤ m := by
  induction hrun with
  | refl => exact ⟨m, h0, by omega⟩
  | move _ hm ih =>
    obtain ⟨j, hp, hk⟩ := ih h0
    obtain ⟨i, hi, hp'⟩ := hmove _ _ _ hp hm
    exact ⟨i, hp', by omega⟩
  | env _ hf ih =>
    obtain ⟨j, hp, hk⟩ := ih h0
    exact ⟨j, henv _ _ _ hp hf, hk⟩

theorem Run.stuck (hrun : Run unbind ours a r k s s') (hat : Cluster.At ours s.cl .nowhere)
    (hr : ours r = true) (hsem : ((s.cl.node a).proc r).pseudosem < 0) : s'.pc = s.pc := by
  suffices h : s'.pc = s.pc ∧ Cluster.At ours s'.cl .nowhere ∧
      ((s'.cl.node a).proc r).pseudosem < 0 from h.1
  induction hrun with
  | refl => exact ⟨rfl, hat, hsem⟩
  | move _ hm ih =>
    obtain ⟨hpc, hat', hsem'⟩ := ih hat hsem
    cases hm with
    | proxy ho => exact absurd ho hat'.not_own
    | wake _ h0 _ => exact absurd hsem' (by omega)
  | env _ hf ih =>
    obtain ⟨hpc, hat', hsem'⟩ := ih hat hsem
    exact ⟨hpc, hat'.frame hf, by rw [hf.proc a r hr]; exact hsem'⟩

theorem exists_run {S : ℕ → Cluster → Prop} {i : ℕ} (pc : VcopyNext)
    (hstep : ∀ {i c}, j < i → S i c → ∃ c₁ c₂, Cluster.Frame ours c c₁ ∧
      Cluster.Own unbind ours c₁ c₂ ∧ S (i - 1) c₂) (hij : j ≤ i) (h : S i c) :
    ∃ k c', Run unbind ours a r k ⟨c, pc⟩ ⟨c', pc⟩ ∧ S j c' := by
  obtain ⟨d, rfl⟩ := Nat.exists_eq_add_of_le hij
  induction d generalizing c with
  | zero => exact ⟨0, c, .refl _, h⟩
  | succ d ih =>
    obtain ⟨c₁, c₂, hf, ho, h₂⟩ := hstep (by omega) h
    obtain ⟨k, c', hrun, h'⟩ := ih (by omega) h₂
    exact ⟨_, c', Run.trans (.move (.env (.refl _) hf) (.proxy ho)) hrun, h'⟩

/-! ### Copies that go on chunk by chunk -/

/-- A way to carry out copies: `len` bytes of `v` are on their way (`Chunk`), which takes `m` moves,
the last one of the caller; `Stage v len i` is the cluster when `i` of them are left, and `Done`
after the copy. -/
structure Chunked (unbind : Node → ℤ → Node) (ours : ℤ → Bool) (a r : ℤ) (m : ℕ)
    (Chunk : VcopyCall → ℤ → Prop) (Stage : VcopyCall → ℤ → ℕ → Cluster → Prop)
    (Done : Cluster → Prop) : Prop where
  pos : ∀ {v len}, Chunk v len → 0 < len ∧ len ≤ v.bytes
  frame : ∀ {v len i c c'}, Stage v len i c → Cluster.Frame ours c c' → Stage v len i c'
  frame_done : ∀ {c c'}, Done c → Cluster.Frame ours c c' → Done c'
  own : ∀ {v len i c c'}, Chunk v len → Stage v len i c → Cluster.Own unbind ours c c' →
    ∃ j, i = j + 1 ∧ Stage v len j c'
  own_done : ∀ {c c'}, Done c → ¬ Cluster.Own unbind ours c c'
  exists_own : ∀ {v len i c}, Chunk v len → Stage v len i c → i ≠ 1 →
    ∃ c₁ c₂, Cluster.Frame ours c c₁ ∧ Cluster.Own unbind ours c₁ c₂
  sem : ∀ {v len i c}, Stage v len i c → (0 ≤ ((c.node a).proc r).pseudosem ↔ i = 1)
  wake : ∀ {v len c w}, Chunk v len → Stage v len 1 c → 0 < w → ∀ cp, ∃ n' pc,
    (c.node a).vcopyWake r (.sleep v len) w cp = (n', pc) ∧
      ((∃ v' len', pc = .sleep v' len' ∧ v'.bytes = v.bytes - len ∧ Chunk v' len' ∧
          Stage v' len' m (c.setNode a n')) ∨
        pc = .ret EMol.ok ∧ Done (c.setNode a n'))

namespace Chunked

variable {m : ℕ} {Chunk : VcopyCall → ℤ → Prop} {Stage : VcopyCall → ℤ → ℕ → Cluster → Prop}
  {Done : Cluster → Prop}

inductive Phase (m : ℕ) (Chunk : VcopyCall → ℤ → Prop)
    (Stage : VcopyCall → ℤ → ℕ → Cluster → Prop) (Done : Cluster → Prop) : ℕ → CopyState → Prop
  | chunk {s : CopyState} {v : VcopyCall} {len : ℤ} {i : ℕ} :
      s.pc = .sleep v len → Chunk v len → Stage v len i s.cl →
      Phase m Chunk Stage Done (i + m * (v.bytes - len).toNat) s
  | done {s : CopyState} : s.pc = .ret EMol.ok → Done s.cl → Phase m Chunk Stage Done 0 s

variable (hP : Chunked unbind ours a r m Chunk Stage Done) {j : ℕ} {s s' : CopyState}

include hP

theorem phase_frame {c' : Cluster} (hp : Phase m Chunk Stage Done j s)
    (hf : Cluster.Frame ours s.cl c') : Phase m Chunk Stage Done j { s with cl := c' } := by
  cases hp with
  | chunk hpc hch hst => exact .chunk hpc hch (hP.frame hst hf)
  | done hpc hd => exact .done hpc (hP.frame_done hd hf)

theorem phase_move (hp : Phase m Chunk Stage Done j s) (hm : Move unbind ours a r s s') :
    ∃ i < j, Phase m Chunk Stage Done i s' := by
  cases hp with
  | @chunk _ v len i hpc hch hst =>
    cases hm with
    | proxy ho =>
      obtain ⟨k, rfl, hst'⟩ := hP.own hch hst ho
      exact ⟨_, by omega, .chunk hpc hch hst'⟩
    | @wake _ _ w cp _ hsem hw =>
      obtain rfl := (hP.sem hst).1 hsem
      rw [hpc]
      obtain ⟨n', pc, hwake, ⟨v', len', rfl, hb, hch', hst'⟩ | ⟨rfl, hd⟩⟩ :=
        hP.wake hch hst hw cp
      · rw [hwake]
        refine ⟨_, ?_, .chunk rfl hch' hst'⟩
        have hpos' := hP.pos hch'
        have hlt : (v'.bytes - len').toNat + 1 ≤ (v.bytes - len).toNat := by omega
        calc m + m * (v'.bytes - len').toNat = m * ((v'.bytes - len').toNat + 1) := by
              rw [Nat.mul_add, Nat.mul_one, Nat.add_comm]
          _ ≤ m * (v.bytes - len).toNat := Nat.mul_le_mul_left m hlt
          _ < 1 + m * (v.bytes - len).toNat := by omega
      · rw [hwake]
        exact ⟨0, by omega, .done rfl hd⟩
  | done hpc hd =>
    cases hm with
    | proxy ho => exact absurd ho (hP.own_done hd)
    | wake hpc' => exact absurd (hpc.symm.trans hpc') (by simp)

theorem phase_returns (hp : Phase m Chunk Stage Done j s) :
    ∃ k s', Run unbind ours a r k s s' ∧ s'.pc = .ret EMol.ok := by
  induction j using Nat.strongRecOn generalizing s with
  | ind j ih =>
    -- one move is enough, after a step of the rest of the cluster
    suffices h : s.pc = .ret EMol.ok ∨ ∃ c₁ s₂, Cluster.Frame ours s.cl c₁ ∧
        Move unbind ours a r { s with cl := c₁ } s₂ by
      obtain hpc | ⟨c₁, s₂, hf, hm⟩ := h
      · exact ⟨0, s, .refl s, hpc⟩
      · obtain ⟨i, hi, hp₂⟩ := hP.phase_move (hP.phase_frame hp hf) hm
        obtain ⟨k, s', hrun, hpc⟩ := ih i hi hp₂
        exact ⟨_, s', Run.trans (.move (.env (.refl s) hf) hm) hrun, hpc⟩
    cases hp with
    | done hpc hd => exact .inl hpc
    | @chunk _ v len i hpc hch hst =>
      refine .inr ?_
      by_cases hi : i = 1
      · exact ⟨s.cl, _, .refl _,
          @Move.wake _ _ _ _ _ v len 1 (fun _ => 0) hpc ((hP.sem hst).2 hi) (by decide)⟩
      · obtain ⟨c₁, c₂, hf, ho⟩ := hP.exists_own hch hst hi
        exact ⟨c₁, _, hf, .proxy ho⟩

/-- The number of the moves is bounded, and a run is at a stage of a chunk or done, and can go on
until it returns. -/
theorem run {v : VcopyCall} {len : ℤ} (hch : Chunk v len) (hst : Stage v len m c)
    (hrun : Run unbind ours a r k ⟨c, .sleep v len⟩ s) :
    k ≤ m * v.bytes.toNat ∧
      ((∃ v' len' i, s.pc = .sleep v' len' ∧ Chunk v' len' ∧ Stage v' len' i s.cl) ∨
        s.pc = .ret EMol.ok ∧ Done s.cl) ∧
      ∃ j s', Run unbind ours a r j s s' ∧ s'.pc = .ret EMol.ok := by
  obtain ⟨j, hp, hk⟩ := hrun.induction (Phase.chunk rfl hch hst)
    (fun _ _ _ hp hm => hP.phase_move hp hm) (fun _ _ _ hp hf => hP.phase_frame hp hf)
  refine ⟨?_, ?_, hP.phase_returns hp⟩
  · have hpos := hP.pos hch
    have hlt : (v.bytes - len).toNat + 1 ≤ v.bytes.toNat := by omega
    calc k ≤ m + m * (v.bytes - len).toNat := by omega
      _ = m * ((v.bytes - len).toNat + 1) := by rw [Nat.mul_add, Nat.mul_one, Nat.add_comm]
      _ ≤ m * v.bytes.toNat := Nat.mul_le_mul_left m hlt
  · cases hp with
    | chunk hpc hch' hst' => exact .inl ⟨_, _, _, hpc, hch', hst'⟩
    | done hpc hd => exact .inr ⟨hpc, hd⟩

end Chunked

end CopyState

/-! ### Copies on one node -/

namespace Node

/-- The first `len` bytes of the copy are at their destination. -/
def copied (n : Node) (v : VcopyCall) (len : ℕ) : Node :=
  n.modProc v.dstNr fun p => { p with mem := p.mem.blit v.daddr (n.proc v.srcNr).mem v.saddr len }

theorem copied_zero (n : Node) (v : VcopyCall) : n.copied v 0 = n :=
  modProc_eq_self _ _ _ (by simp)

theorem copied_advance (n : Node) {v : VcopyCall} (hne : v.srcNr ≠ v.dstNr) (len : ℤ) (m : ℕ) :
    (n.copied v len.toNat).copied (v.advance len) m = n.copied v (len.toNat + m) := by
  have hsrc : ((n.copied v len.toNat).proc v.srcNr).mem = (n.proc v.srcNr).mem := by
    rw [copied, modProc_of_ne _ _ hne]
  have hv : (v.advance len).srcNr = v.srcNr ∧ (v.advance len).dstNr = v.dstNr := ⟨rfl, rfl⟩
  rw [copied, hv.1, hv.2, hsrc]
  simp [copied, modProc, VcopyCall.advance, Mem.blit_blit]

/-- **A copy between two processes of one node** copies a beginning of the block and nothing else:
the whole block if it returns `OK`, less of it with the error of a user copy. -/
theorem vcopyLocal_copied {cp : ℕ → ℤ} : ∀ (fuel k : ℕ) (n : Node) (v : VcopyCall),
    0 < n.conf.dMaxCopybuf → v.srcNr ≠ v.dstNr → 0 ≤ v.bytes → v.bytes ≤ fuel →
    ∃ (m : ℕ) (code : ℤ), n.vcopyLocal v cp fuel k = (n.copied v m, code) ∧
      (code = EMol.ok ∧ (m : ℤ) = v.bytes ∨
        (m : ℤ) < v.bytes ∧ code ≠ EMol.ok ∧ ∃ j, code = cp j) := by
  intro fuel
  induction fuel with
  | zero =>
    intro k n v _ _ h0 hf
    exact ⟨0, EMol.ok, by rw [copied_zero]; rfl, .inl ⟨rfl, by omega⟩⟩
  | succ fuel ih =>
    intro k n v hl hne h0 hf
    by_cases hb : v.bytes ≤ 0
    · have hend : n.vcopyLocal v cp (fuel + 1) k = (n, EMol.ok) := if_pos hb
      exact ⟨0, _, by rw [hend, copied_zero], .inl ⟨rfl, by omega⟩⟩
    by_cases ht : cp k = EMol.ok
    · set len := if n.conf.dMaxCopybuf < v.bytes then n.conf.dMaxCopybuf else v.bytes with hlen
      have hturn : n.vcopyLocal v cp (fuel + 1) k =
          (n.copied v len.toNat).vcopyLocal (v.advance len) cp fuel (k + 1) :=
        (if_neg hb).trans (if_neg (not_not.2 ht))
      have hbytes : (v.advance len).bytes = v.bytes - len := rfl
      obtain ⟨m, code, hm, hret⟩ := ih (k + 1) (n.copied v len.toNat) (v.advance len) hl hne
        (by omega) (by omega)
      refine ⟨len.toNat + m, code, by rw [hturn, hm, copied_advance n hne], ?_⟩
      exact hret.imp (fun h => ⟨h.1, by omega⟩) fun h => ⟨by omega, h.2⟩
    · have hend : n.vcopyLocal v cp (fuel + 1) k = (n, cp k) := (if_neg hb).trans (if_pos ht)
      exact ⟨0, _, by rw [hend, copied_zero], .inr ⟨by omega, ht, k, rfl⟩⟩

/-- Two chunks of the processes 4 and 5. -/
theorem vcopyLocal_copied_two :
    let n : Node := ⟨Conf.sample 0, fun q => Proc.sample 0 q {}, Proc.sampleProxy, Proc.sampleProxy⟩
    let v : VcopyCall := ⟨4, 5, 0, 0, 100000⟩
    n.vcopyLocal v (fun _ => 0) 100000 0 = (n.copied v 100000, EMol.ok) := by
  intro n v
  obtain ⟨m, code, h, ⟨rfl, hm⟩ | ⟨-, hne, j, hj⟩⟩ := @vcopyLocal_copied (fun _ => 0) 100000 0 n v
    (by decide) (by decide) (by decide) (by decide)
  · cases (Int.ofNat.inj hm : m = 100000)
    exact h
  · exact absurd hj hne

end Node

end MolIpc
