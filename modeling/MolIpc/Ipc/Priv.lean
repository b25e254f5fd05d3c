import MolIpc.Ipc.MigrateFlush
import MolIpc.Ipc.UnbindTrace

/-!
The privilege structure of a process: its identifier `s_id`, the map of the notifications that are
pending and the three words that they report.

The queues, the proxies, the sleeps and the migrations leave it alone.
-/

namespace MolIpc

open Sections

section Priv

variable {p p' : Proc}

theorem Proc.sId_eq (h : p'.priv = p.priv) : p'.sId = p.sId := congrArg Prod.fst h

theorem Proc.notifyPending_eq (h : p'.priv = p.priv) : p'.notifyPending = p.notifyPending :=
  congrArg (·.2.1) h

@[simp] theorem Proc.wakeMigr_priv (p : Proc) : p.wakeMigr.priv = p.priv := by
  unfold Proc.wakeMigr
  split <;> rfl

end Priv

namespace Node

structure SamePriv (n n' : Node) : Prop where
  conf : n'.conf = n.conf
  priv (q : ℤ) : (n'.proc q).priv = (n.proc q).priv

section Basic

variable {n m n' : Node} {f : Proc → Proc}

theorem SamePriv.refl (n : Node) : SamePriv n n := ⟨rfl, fun _ => rfl⟩

theorem SamePriv.trans (h : SamePriv n m) (h' : SamePriv m n') : SamePriv n n' :=
  ⟨h'.conf.trans h.conf, fun q => (h'.priv q).trans (h.priv q)⟩

theorem samePriv_modProc (i : ℤ) (n : Node) (hf : ∀ p, (f p).priv = p.priv) :
    SamePriv n (n.modProc i f) :=
  ⟨rfl, fun q => modProc_field i q Proc.priv hf⟩

theorem samePriv_unlink (x : ℤ) (n : Node) : SamePriv n (n.unlink x) := ⟨rfl, fun _ => rfl⟩

theorem samePriv_sproxyEnqueue (x : ℤ) (n : Node) : SamePriv n (n.sproxyEnqueue x).1 :=
  ⟨sproxyEnqueue_conf n x, fun q => sproxyEnqueue_field Proc.priv (fun _ _ => rfl) q⟩

end Basic

/-! ### Calls that wait -/

section Calls

variable {c : ℤ} {n : Node}

theorem samePriv_stopRemote (c d : ℤ) (n : Node) : SamePriv n (n.stopRemote c d) :=
  samePriv_modProc d n fun _ => by rfl

theorem samePriv_askRemote (c : ℤ) (cmd : Cmd) (ep code : ℤ) (m : Message) (n : Node) :
    SamePriv n (n.askRemote c cmd ep code m) :=
  (samePriv_modProc c n fun _ => by rfl).trans (samePriv_sproxyEnqueue c _)

theorem samePriv_leaveProxy (c : ℤ) (n : Node) : SamePriv n (n.leaveProxy c) := by
  unfold leaveProxy
  split
  · exact (samePriv_unlink c n).trans (samePriv_modProc c _ fun _ => by rfl)
  · exact samePriv_modProc c n fun _ => by rfl

theorem samePriv_sleepOr {timeout : ℤ} {next : Next} {k : Node → ℤ → Node × Next}
    (hk : ∀ u code, SamePriv u (k u code).1) : SamePriv n (n.sleepOr c timeout next k).1 := by
  unfold sleepOr
  split
  · refine (samePriv_modProc c n fun p => ?_).trans (hk _ _)
    exact p.wakeMigr_priv
  · exact samePriv_modProc c n fun _ => by rfl

end Calls

/-! ### Migrations -/

section Migrate

variable {i : ℤ} {n : Node} {env : MigrEnv}

theorem Stirs.samePriv {n n' : Node} (h : Stirs n n') : SamePriv n n' := ⟨h.conf, h.priv⟩

theorem samePriv_oldThread (new t : ℤ) (n : Node) : SamePriv n (n.oldThread new t) := by
  have hleave : SamePriv n (n.modProc t (·.leave new)) := by
    refine samePriv_modProc t n fun p => ?_
    unfold Proc.leave
    dsimp only
    split <;> rfl
  exact hleave.trans ((stirs_flushSendingList t _).trans (stirs_flushMigrList t _)).samePriv

theorem samePriv_migrate (n : Node) (env : MigrEnv) (oper : MigrOper) (pid ep new : ℤ) :
    SamePriv n (n.migrate env oper pid ep new).1 := by
  rcases migrate_tries n env oper pid ep new with ⟨-, hn⟩ | ⟨-, -, -, hm⟩
  · rw [hn]
    exact .refl n
  have hsettle : ∀ {u : Node}, SamePriv n u → SamePriv n (u.modProc (endpointP ep) fun p =>
      { p with nodemap := Function.update p.nodemap new true }.unmark) := fun {u} hu =>
    hu.trans (samePriv_modProc _ u fun _ => by rfl)
  generalize (n.migrate env oper pid ep new).1 = m at hm ⊢
  cases hm with
  | startRemote | rollbackRemote => exact samePriv_modProc _ n fun _ => by rfl
  | start =>
    exact foldl_related (R := SamePriv) .refl .trans
      (fun t _ n => samePriv_modProc t n fun _ => by rfl) n
  | rollback =>
    exact (foldl_related (R := Stirs) .refl .trans (fun t _ n => stirs_rollbackThread t n) n).samePriv
  | old =>
    exact hsettle (foldl_related (R := SamePriv) .refl .trans
      (fun t _ n => samePriv_oldThread new t n) n)
  | new => exact hsettle (samePriv_modProc _ n fun _ => by rfl)
  | other =>
    exact hsettle ((samePriv_modProc _ n fun _ => by rfl).trans (stirs_flushMigrList _ _).samePriv)

end Migrate

end Node

end MolIpc
