import MolIpc.Proxy.Get2rmt

/-!
A cluster: nodes whose proxies move commands, in FIFO order for each pair of nodes.

The steps are those of the proxies. A sender proxy takes a descriptor off its queue (`take`),
then turns it into a header that goes to the channel of the destination node (`emit`); a receiver
proxy hands the first header of a channel to `mm_put2lcl` (`deliver`). User-memory copies
succeed. The unbinding that follows some error acknowledges is a parameter.
-/

namespace MolIpc

/-- Nodes, the descriptor that each sender proxy has in hand with the code of its check, and the
commands on their way from node to node. -/
structure Cluster where
  node : ℤ → Node
  hand : ℤ → ℤ → Option (ℤ × ℤ)
  chan : ℤ → ℤ → List (Hdr × Mem)

def update₂ {α : Type} (f : ℤ → ℤ → α) (i j : ℤ) (a : α) : ℤ → ℤ → α := fun i' j' =>
  if i' = i ∧ j' = j then a else f i' j'

section Update

variable {α : Type} (f : ℤ → ℤ → α) (i j : ℤ) (a : α)

@[simp] theorem update₂_same : update₂ f i j a i j = a := by simp [update₂]

@[simp] theorem update₂_of_ne {i' j' : ℤ} (h : ¬ (i' = i ∧ j' = j)) :
    update₂ f i j a i' j' = f i' j' := if_neg h

end Update

namespace Cluster

variable {k m : ℤ}

/-! ### Steps of the proxies -/

/-- Change the node `k`. -/
def setNode (c : Cluster) (k : ℤ) (n : Node) : Cluster :=
  { c with node := Function.update c.node k n }

@[simp] theorem setNode_node_same (c : Cluster) (k : ℤ) (n : Node) :
    (c.setNode k n).node k = n := by simp [setNode]

@[simp] theorem setNode_node_of_ne (c : Cluster) (n : Node) (h : m ≠ k) :
    (c.setNode k n).node m = c.node m := by simp [setNode, h]

/-- First section of `mm_get2rmt` by the proxy `px` of node `k`. -/
def take (c : Cluster) (k px : ℤ) : Option Cluster :=
  if c.hand k px = none ∧ (c.node k).get2rmtEntry px = EMol.ok then
    ((c.node k).get2rmtDequeue px).map fun r =>
      { c.setNode k r.1 with hand := update₂ c.hand k px (some r.2) }
  else none

/-- Second section of `mm_get2rmt`, and the transfer of its header; `pay` is what the payload
buffer held before. -/
def emit (c : Cluster) (k px : ℤ) (pay : Mem) : Option Cluster :=
  (c.hand k px).bind fun r =>
    ((c.node k).get2rmtSend r.1 r.2 pay 0).map fun o =>
      { node := Function.update c.node k o.1
        hand := update₂ c.hand k px none
        chan := match o.2.2 with
          | .hdr h => update₂ c.chan k h.dnode (c.chan k h.dnode ++ [(h, o.2.1)])
          | _ => c.chan }

variable (unbind : Node → ℤ → Node)

/-- `mm_put2lcl` on node `k` with the first command that comes from node `m`, and its result. -/
def deliver (c : Cluster) (k m : ℤ) : Option (Cluster × ℤ) :=
  match c.chan m k with
  | [] => none
  | (h, pay) :: rest =>
    let px := (c.node k).conf.nProxies m
    ((c.node k).put2lcl px h pay 0).map fun r =>
      let n := if (c.node k).unbinds px h then unbind r.1 (endpointP h.src) else r.1
      ({ c.setNode k n with chan := update₂ c.chan m k rest }, r.2)

/-! ### The commands of a few processes -/

section Ours

variable (ours : ℤ → Bool) {x px ret : ℤ} {pay : Mem}

def oursHdr (h : Hdr) : Bool := ours (endpointP h.src) || ours (endpointP h.dst)

inductive Loc
  | nowhere
  | queue (k px x : ℤ)
  | hand (k px x ret : ℤ)
  | chan (k m : ℤ) (h : Hdr) (pay : Mem)

namespace Loc

variable {loc : Loc}

/-- What of these processes the queue of proxy `px` on node `k` holds. -/
def queued : Loc → ℤ → ℤ → List ℤ
  | .queue k px x => update₂ (fun _ _ => []) k px [x]
  | _ => fun _ _ => []

/-- What of these processes the proxy `px` of node `k` has in hand. -/
def held : Loc → ℤ → ℤ → Option (ℤ × ℤ)
  | .hand k px x ret => update₂ (fun _ _ => none) k px (some (x, ret))
  | _ => fun _ _ => none

/-- What of these processes is on its way from node `k` to node `m`. -/
def flying : Loc → ℤ → ℤ → List (Hdr × Mem)
  | .chan k m h pay => update₂ (fun _ _ => []) k m [(h, pay)]
  | _ => fun _ _ => []

theorem eq_queue {l : List ℤ} (h : loc.queued k px = x :: l) : loc = .queue k px x := by
  cases loc with
  | queue k' px' x' =>
    by_cases hk : k = k' ∧ px = px'
    · obtain ⟨rfl, rfl⟩ := hk
      simp only [queued, update₂_same, List.cons.injEq] at h
      rw [h.1]
    · simp [queued, hk] at h
  | nowhere | hand | chan => simp [queued] at h

theorem eq_hand (h : loc.held k px = some (x, ret)) : loc = .hand k px x ret := by
  cases loc with
  | hand k' px' x' ret' =>
    by_cases hk : k = k' ∧ px = px'
    · obtain ⟨rfl, rfl⟩ := hk
      simp only [held, update₂_same, Option.some.injEq, Prod.mk.injEq] at h
      rw [h.1, h.2]
    · simp [held, hk] at h
  | nowhere | queue | chan => simp [held] at h

theorem eq_chan {h : Hdr} {l : List (Hdr × Mem)} (hl : loc.flying k m = (h, pay) :: l) :
    loc = .chan k m h pay := by
  cases loc with
  | chan k' m' h' pay' =>
    by_cases hk : k = k' ∧ m = m'
    · obtain ⟨rfl, rfl⟩ := hk
      simp only [flying, update₂_same, List.cons.injEq, Prod.mk.injEq] at hl
      rw [hl.1.1, hl.1.2]
    · simp [flying, hk] at hl
  | nowhere | queue | hand => simp [flying] at hl

end Loc

/-- There is one command of these processes in the cluster, at `loc`, or none. -/
structure At (c : Cluster) (loc : Loc) : Prop where
  queue : ∀ k px, ((c.node k).sproxy px).list.filter ours = loc.queued k px
  hand : ∀ k px, (c.hand k px).filter (fun r => ours r.1) = loc.held k px
  chan : ∀ k m, (c.chan k m).filter (fun r => oursHdr ours r.1) = loc.flying k m

structure ProxyUp (n : Node) (px m : ℤ) : Prop where
  lpid : (n.sproxy px).lpid ≠ procNoPid
  bound : (n.sproxy px).rts.slotFree = false
  proxy : (n.sproxy px).misc.proxy = true
  connected : (n.sproxy px).misc.connected = true
  nodemap : (n.sproxy px).nodemap m = true
  rbound : (n.rproxy px).rts.slotFree = false
  rproxy : (n.rproxy px).misc.proxy = true
  rconnected : (n.rproxy px).misc.connected = true

section ProxyUp

variable {n : Node} {px m : ℤ} (h : ProxyUp n px m)

include h

theorem ProxyUp.sproxy_ne_free : (n.sproxy px).rts ≠ Rts.onlyFree := by
  intro hf
  have hb := h.bound
  rw [hf] at hb
  exact absurd hb (by decide)

theorem ProxyUp.modProc (i : ℤ) (f : Proc → Proc) : ProxyUp (n.modProc i f) px m :=
  ⟨h.lpid, h.bound, h.proxy, h.connected, h.nodemap, h.rbound, h.rproxy, h.rconnected⟩

theorem ProxyUp.unlink (i : ℤ) : ProxyUp (n.unlink i) px m :=
  ⟨h.lpid, h.bound, h.proxy, h.connected, h.nodemap, h.rbound, h.rproxy, h.rconnected⟩

theorem ProxyUp.enqueue (px' x : ℤ) :
    ProxyUp (n.modSproxy px' fun sp => sp.enqueueCaller x) px m := by
  by_cases hpx : px = px'
  · subst hpx
    have hkeep : ∀ sp : Proc, (sp.enqueueCaller x).lpid = sp.lpid ∧
        (sp.enqueueCaller x).rts.slotFree = sp.rts.slotFree ∧
        (sp.enqueueCaller x).misc = sp.misc ∧ (sp.enqueueCaller x).nodemap = sp.nodemap := by
      intro sp
      unfold Proc.enqueueCaller
      dsimp only
      split
      · unfold Proc.upIfReady
        split <;> exact ⟨rfl, rfl, rfl, rfl⟩
      · exact ⟨rfl, rfl, rfl, rfl⟩
    obtain ⟨h1, h2, h3, h4⟩ := hkeep (n.sproxy px)
    refine ⟨?_, ?_, ?_, ?_, ?_, h.rbound, h.rproxy, h.rconnected⟩
    all_goals rw [Node.modSproxy_same]
    · rw [h1]; exact h.lpid
    · rw [h2]; exact h.bound
    · rw [h3]; exact h.proxy
    · rw [h3]; exact h.connected
    · rw [h4]; exact h.nodemap
  · refine ⟨?_, ?_, ?_, ?_, ?_, h.rbound, h.rproxy, h.rconnected⟩
    all_goals rw [Node.modSproxy_of_ne _ _ hpx]
    exacts [h.lpid, h.bound, h.proxy, h.connected, h.nodemap]

theorem ProxyUp.sproxyEnqueue (hpx : n.conf.nProxies (n.proc x).rmtcmd.dnode = px) :
    n.sproxyEnqueue x =
      ((n.modProc x fun p => { p with proxy := px }).modSproxy px fun sp => sp.enqueueCaller x,
        EMol.ok) := by
  simp only [Node.sproxyEnqueue, hpx, h.sproxy_ne_free, if_false]

end ProxyUp

/-- The rest of the cluster may do anything that leaves alone the descriptors of the processes in
question and their commands, and the proxies go on working. -/
structure Frame (c c' : Cluster) : Prop where
  conf : ∀ k, (c'.node k).conf = (c.node k).conf
  proc : ∀ k i, ours i = true → (c'.node k).proc i = (c.node k).proc i
  up : ∀ k px m, ProxyUp (c.node k) px m → ProxyUp (c'.node k) px m
  queue : ∀ k px, ((c'.node k).sproxy px).list.filter ours = ((c.node k).sproxy px).list.filter ours
  hand : ∀ k px, (c'.hand k px).filter (fun r => ours r.1) =
    (c.hand k px).filter (fun r => ours r.1)
  chan : ∀ k m, (c'.chan k m).filter (fun r => oursHdr ours r.1) =
    (c.chan k m).filter (fun r => oursHdr ours r.1)

inductive Own : Cluster → Cluster → Prop
  | take {c c' : Cluster} {k px x : ℤ} {rest : List ℤ} :
      ((c.node k).sproxy px).list = x :: rest → ours x = true → c.take k px = some c' → Own c c'
  | emit {c c' : Cluster} {k px x ret : ℤ} (pay : Mem) :
      c.hand k px = some (x, ret) → ours x = true → c.emit k px pay = some c' → Own c c'
  | deliver {c c' : Cluster} {k m ret : ℤ} {h : Hdr} {pay : Mem} {rest : List (Hdr × Mem)} :
      c.chan m k = (h, pay) :: rest → oursHdr ours h = true →
      c.deliver unbind k m = some (c', ret) → Own c c'

/-- Where the command of these processes is after the second section of `mm_get2rmt`. -/
def emitted (k : ℤ) (o : Node × Mem × Got) : Loc :=
  match o.2.2 with
  | .hdr h => if oursHdr ours h then .chan k h.dnode h o.2.1 else .nowhere
  | _ => .nowhere

section Token

variable {ours unbind} {c c' : Cluster} {loc : Loc} {rest : List (Hdr × Mem)} {n n' : Node}
  {o : Node × Mem × Got}

theorem Frame.refl (c : Cluster) : Frame ours c c :=
  ⟨fun _ => rfl, fun _ _ _ => rfl, fun _ _ _ h => h, fun _ _ => rfl, fun _ _ => rfl, fun _ _ => rfl⟩

theorem At.frame (hat : At ours c loc) (hf : Frame ours c c') : At ours c' loc :=
  ⟨fun k px => (hf.queue k px).trans (hat.queue k px),
    fun k px => (hf.hand k px).trans (hat.hand k px),
    fun k m => (hf.chan k m).trans (hat.chan k m)⟩

theorem At.setNode (hat : At ours c loc) (hs : n.sproxy = (c.node k).sproxy) :
    At ours (c.setNode k n) loc := by
  refine ⟨fun k' px => ?_, hat.hand, hat.chan⟩
  by_cases hk : k' = k
  · subst hk
    rw [setNode_node_same, hs]
    exact hat.queue k' px
  · rw [setNode_node_of_ne _ _ hk]
    exact hat.queue k' px

theorem filter_enqueue {l : List ℤ} (hx : ours x = true) (hq : l.filter ours = []) (px' : ℤ) :
    (if px' = px then l ++ [x] else l).filter ours = (Loc.queue k px x).queued k px' := by
  by_cases hpx : px' = px
  · rw [if_pos hpx, List.filter_append, hq]
    simp [Loc.queued, hpx, List.filter, hx]
  · rw [if_neg hpx, hq]
    simp [Loc.queued, hpx]

theorem At.enqueue (hat : At ours c .nowhere) (hx : ours x = true)
    (hs : ∀ px', (n.sproxy px').list = if px' = px then ((c.node k).sproxy px').list ++ [x]
      else ((c.node k).sproxy px').list) : At ours (c.setNode k n) (.queue k px x) := by
  refine ⟨fun k' px' => ?_, hat.hand, hat.chan⟩
  have hq : ((c.node k').sproxy px').list.filter ours = [] := hat.queue k' px'
  by_cases hk : k' = k
  · subst hk
    rw [setNode_node_same, hs]
    exact filter_enqueue hx hq px'
  · rw [setNode_node_of_ne _ _ hk, hq]
    simp [Loc.queued, hk]

theorem At.eq_chan {h : Hdr} (hat : At ours c loc) (hc : c.chan m k = (h, pay) :: rest)
    (hh : oursHdr ours h = true) : loc = .chan m k h pay := by
  have hq := hat.chan m k
  rw [hc] at hq
  simp only [List.filter, hh] at hq
  exact Loc.eq_chan hq.symm

theorem At.own (hat : At ours c loc) (ho : Own unbind ours c c') :
    (∃ k px x rest, loc = .queue k px x ∧ ((c.node k).sproxy px).list = x :: rest ∧
        c.take k px = some c') ∨
      (∃ k px x ret pay, loc = .hand k px x ret ∧ c.hand k px = some (x, ret) ∧
        c.emit k px pay = some c') ∨
      (∃ k m h pay rest ret, loc = .chan m k h pay ∧ c.chan m k = (h, pay) :: rest ∧
        c.deliver unbind k m = some (c', ret)) := by
  cases ho with
  | @take k px x rest hl hx ht =>
    have hq := hat.queue k px
    rw [hl, List.filter_cons_of_pos hx] at hq
    exact .inl ⟨k, px, x, rest, Loc.eq_queue hq.symm, hl, ht⟩
  | @emit k px x ret pay hh hx he =>
    have hq := hat.hand k px
    rw [hh] at hq
    simp only [Option.filter, hx, if_true] at hq
    exact .inr (.inl ⟨k, px, x, ret, pay, Loc.eq_hand hq.symm, hh, he⟩)
  | @deliver k m ret h pay rest hc hh hd =>
    exact .inr (.inr ⟨k, m, h, pay, rest, ret, hat.eq_chan hc hh, hc, hd⟩)

theorem At.not_own (hat : At ours c .nowhere) : ¬ Own unbind ours c c' := by
  intro ho
  obtain ⟨_, _, _, _, hloc, -⟩ | ⟨_, _, _, _, _, hloc, -⟩ | ⟨_, _, _, _, _, _, hloc, -⟩ :=
    hat.own ho <;> cases hloc

theorem deliver_of_put {h : Hdr} (hc : c.chan m k = (h, pay) :: rest)
    (hput : (c.node k).put2lcl ((c.node k).conf.nProxies m) h pay 0 = some (n', ret)) :
    ∃ c', c.deliver unbind k m = some (c', ret) := by
  have hsome : (c.deliver unbind k m).map Prod.snd = some ret := by
    simp [Cluster.deliver, hc, hput]
  obtain ⟨⟨c', ret'⟩, hd, rfl⟩ := Option.map_eq_some_iff.1 hsome
  exact ⟨c', hd⟩

theorem At.take_eq {rest : List ℤ} (hat : At ours c (.queue k px x))
    (hl : ((c.node k).sproxy px).list = x :: rest) (ht : c.take k px = some c') :
    c'.node = Function.update c.node k ((c.node k).unlink x) ∧
      At ours c' (.hand k px x ((c.node k).get2rmtCheck px x)) := by
  unfold take at ht
  split at ht
  swap
  · exact absurd ht.symm (Option.some_ne_none _)
  simp only [Node.get2rmtDequeue, hl, Option.map_some, Option.some.injEq] at ht
  subst ht
  have hx : ours x = true := by
    have hq := hat.queue k px
    simp only [Loc.queued, update₂_same] at hq
    exact (List.mem_filter.1 (hq ▸ List.mem_singleton_self x)).2
  refine ⟨rfl, ⟨fun k' px' => ?_, fun k' px' => ?_, fun k' m => ?_⟩⟩
  · by_cases hk : k' = k
    · subst hk
      have hq := hat.queue k' px'
      simp only [setNode_node_same, Node.unlink, List.filter_filter, Loc.queued]
      rw [List.filter_congr (fun a _ => Bool.and_comm _ _), ← List.filter_filter, hq]
      by_cases hpx : px' = px
      · simp [Loc.queued, hpx]
      · simp [Loc.queued, hpx]
    · have hq := hat.queue k' px'
      simp only [Loc.queued] at hq ⊢
      simpa [hk] using hq
  · by_cases hk : k' = k ∧ px' = px
    · obtain ⟨rfl, rfl⟩ := hk
      simp [Loc.held, hx, Option.filter]
    · have hq := hat.hand k' px'
      simp only [Loc.held] at hq ⊢
      simpa [hk] using hq
  · exact hat.chan k' m

theorem At.own_take (hat : At ours c (.queue k px x)) (ho : Own unbind ours c c') :
    c'.node = Function.update c.node k ((c.node k).unlink x) ∧
      At ours c' (.hand k px x ((c.node k).get2rmtCheck px x)) := by
  obtain ⟨_, _, _, _, hloc, hl, ht⟩ | ⟨_, _, _, _, _, hloc, -⟩ | ⟨_, _, _, _, _, _, hloc, -⟩ :=
    hat.own ho <;> cases hloc
  exact hat.take_eq hl ht

theorem At.emit_eq (hat : At ours c (.hand k px x ret)) (hh : c.hand k px = some (x, ret))
    (ho : (c.node k).get2rmtSend x ret pay 0 = some o) (he : c.emit k px pay = some c') :
    c'.node = Function.update c.node k o.1 ∧ At ours c' (emitted ours k o) := by
  simp only [emit, hh, Option.bind_some, ho, Option.map_some, Option.some.injEq] at he
  subst he
  have hsame := Node.sameProxies_send ho
  refine ⟨rfl, ⟨fun k' px' => ?_, fun k' px' => ?_, fun k' m => ?_⟩⟩
  · have hq : (((Function.update c.node k o.1) k').sproxy px').list =
        ((c.node k').sproxy px').list := by
      by_cases hk : k' = k
      · subst hk
        simp [hsame.sproxy]
      · simp [hk]
    have hloc : (emitted ours k o).queued k' px' = [] := by
      unfold emitted
      split
      · split <;> rfl
      · rfl
    rw [hq, hat.queue k' px', hloc]
    rfl
  · have hloc : (emitted ours k o).held k' px' = none := by
      unfold emitted
      split
      · split <;> rfl
      · rfl
    rw [hloc]
    by_cases hk : k' = k ∧ px' = px
    · obtain ⟨rfl, rfl⟩ := hk
      simp
    · have hq := hat.hand k' px'
      simp only [Loc.held] at hq
      simpa [hk] using hq
  · have hq : (c.chan k' m).filter (fun r => oursHdr ours r.1) = [] := hat.chan k' m
    unfold emitted
    split
    · rename_i h hgot
      simp only
      by_cases hk : k' = k ∧ m = h.dnode
      · obtain ⟨rfl, rfl⟩ := hk
        by_cases hours : oursHdr ours h = true
        · simp [hours, hq, Loc.flying, List.filter]
        · simp [hours, hq, Loc.flying, List.filter]
      · rw [update₂_of_ne _ _ _ _ hk, hq]
        split
        · simp [Loc.flying, hk]
        · rfl
    · exact hq

theorem At.own_emit (hat : At ours c (.hand k px x ret)) (ho : Own unbind ours c c') :
    ∃ pay, ∀ n' pay' h, (c.node k).get2rmtSend x ret pay 0 = some (n', pay', .hdr h) →
      oursHdr ours h = true →
        c'.node = Function.update c.node k n' ∧ At ours c' (.chan k h.dnode h pay') := by
  obtain ⟨_, _, _, _, hloc, -⟩ | ⟨_, _, _, _, pay, hloc, hhand, he⟩ | ⟨_, _, _, _, _, _, hloc, -⟩ :=
    hat.own ho <;> cases hloc
  refine ⟨pay, fun n' pay' h hsend hh => ?_⟩
  have hloc : emitted ours k (n', pay', .hdr h) = .chan k h.dnode h pay' := by simp [emitted, hh]
  exact hloc ▸ hat.emit_eq hhand hsend he

theorem At.own_deliver {h : Hdr} (hat : At ours c (.chan m k h pay)) (ho : Own unbind ours c c') :
    ∃ rest ret, c.chan m k = (h, pay) :: rest ∧ c.deliver unbind k m = some (c', ret) := by
  obtain ⟨_, _, _, _, hloc, -⟩ | ⟨_, _, _, _, _, hloc, -⟩ | ⟨_, _, _, _, rest, ret, hloc, hc, hd⟩ :=
    hat.own ho <;> cases hloc
  exact ⟨rest, ret, hc, hd⟩

theorem At.deliver_eq {ret' : ℤ} {h : Hdr} (hat : At ours c (.chan m k h pay)) (loc : Loc)
    (hc : c.chan m k = (h, pay) :: rest)
    (hput : (c.node k).put2lcl ((c.node k).conf.nProxies m) h pay 0 = some (n', ret))
    (hun : (c.node k).unbinds ((c.node k).conf.nProxies m) h = false)
    (hqueue : ∀ px, (n'.sproxy px).list.filter ours = loc.queued k px)
    (hother : ∀ k' px, k' ≠ k → loc.queued k' px = []) (hheld : ∀ k' px, loc.held k' px = none)
    (hflying : ∀ k' m', loc.flying k' m' = []) (hd : c.deliver unbind k m = some (c', ret')) :
    ret' = ret ∧ c'.node = Function.update c.node k n' ∧ At ours c' loc := by
  simp only [deliver, hc, hput, hun, Bool.false_eq_true, if_false, Option.map_some,
    Option.some.injEq, Prod.mk.injEq] at hd
  obtain ⟨rfl, rfl⟩ := hd
  refine ⟨rfl, rfl, ⟨fun k' px => ?_, fun k' px => ?_, fun k' m' => ?_⟩⟩
  · by_cases hk : k' = k
    · subst hk
      simpa using hqueue px
    · have hq : ((c.node k').sproxy px).list.filter ours = [] := hat.queue k' px
      rw [hother k' px hk]
      simpa only [setNode_node_of_ne _ _ hk] using hq
  · rw [hheld]
    exact hat.hand k' px
  · rw [hflying]
    have hq := hat.chan k' m'
    by_cases hk : k' = m ∧ m' = k
    · obtain ⟨rfl, rfl⟩ := hk
      have hours : oursHdr ours h = true := by
        simp only [Loc.flying, update₂_same] at hq
        have hmem : (h, pay) ∈ (c.chan k' m').filter (fun r => oursHdr ours r.1) := by
          rw [hq]
          exact List.mem_singleton_self _
        exact (List.mem_filter.1 hmem).2
      rw [hc] at hq
      simpa [Loc.flying, List.filter, hours] using hq
    · simpa [hk, Loc.flying] using hq

section Deliver

variable {k m ret ret' : ℤ} {h : Hdr} {pay : Mem} {rest : List (Hdr × Mem)} {n' : Node}
  (hat : At ours c (.chan m k h pay)) (hc : c.chan m k = (h, pay) :: rest)
  (hput : (c.node k).put2lcl ((c.node k).conf.nProxies m) h pay 0 = some (n', ret))
  (hun : (c.node k).unbinds ((c.node k).conf.nProxies m) h = false)
  (hd : c.deliver unbind k m = some (c', ret'))

include hat hc hput hun hd

theorem At.deliver_enqueue (hx : ours x = true)
    (hlist : ∀ px', (n'.sproxy px').list = if px' = px then ((c.node k).sproxy px').list ++ [x]
      else ((c.node k).sproxy px').list) :
    ret' = ret ∧ c'.node = Function.update c.node k n' ∧ At ours c' (.queue k px x) :=
  hat.deliver_eq (.queue k px x) hc hput hun
    (fun px' => hlist px' ▸ filter_enqueue hx (hat.queue k px') px')
    (fun k' px' hk => by simp [Loc.queued, hk]) (fun _ _ => rfl) (fun _ _ => rfl) hd

theorem At.deliver_done (hs : n'.sproxy = (c.node k).sproxy) :
    ret' = ret ∧ c'.node = Function.update c.node k n' ∧ At ours c' .nowhere :=
  hat.deliver_eq .nowhere hc hput hun (fun px => hs ▸ hat.queue k px) (fun _ _ _ => rfl)
    (fun _ _ => rfl) (fun _ _ => rfl) hd

end Deliver

/-- The command is first where it waits, and nothing else occupies the proxy. -/
def Front (c : Cluster) : Loc → Prop
  | .nowhere => True
  | .queue k px x => ((c.node k).sproxy px).list = [x] ∧ c.hand k px = none
  | .hand k px x ret => c.hand k px = some (x, ret)
  | .chan k m h pay => c.chan k m = [(h, pay)]

/-- The rest of the cluster can get out of the way of the command. -/
theorem At.exists_front (hat : At ours c loc) : ∃ c₁, Frame ours c c₁ ∧ Front c₁ loc := by
  -- drop everything that is not of these processes
  let c₁ : Cluster :=
    { node := fun k => { c.node k with
        sproxy := fun px => { (c.node k).sproxy px with
          list := ((c.node k).sproxy px).list.filter ours } }
      hand := fun k px => (c.hand k px).filter fun r => ours r.1
      chan := fun k m => (c.chan k m).filter fun r => oursHdr ours r.1 }
  refine ⟨c₁, ⟨fun _ => rfl, fun _ _ _ => rfl, fun k px m hp => ?_, fun k px => ?_, fun k px => ?_,
    fun k m => ?_⟩, ?_⟩
  · exact ⟨hp.lpid, hp.bound, hp.proxy, hp.connected, hp.nodemap, hp.rbound, hp.rproxy,
      hp.rconnected⟩
  · simp [c₁]
  · cases hh : c.hand k px with
    | none => simp [c₁, hh]
    | some r =>
      by_cases hr : ours r.1 = true
      · simp [c₁, hh, hr, Option.filter]
      · simp [c₁, hh, hr, Option.filter]
  · simp [c₁]
  · cases loc with
    | nowhere => trivial
    | queue k px x => exact ⟨(hat.queue k px).trans (by simp [Loc.queued]), hat.hand k px⟩
    | hand k px x ret => exact (hat.hand k px).trans (by simp [Loc.held])
    | chan k m h pay => exact (hat.chan k m).trans (by simp [Loc.flying])

theorem Own.exists_take (hf : Front c (.queue k px x)) (hx : ours x = true)
    (hup : ProxyUp (c.node k) px m) : ∃ c', Own unbind ours c c' := by
  have hentry : (c.node k).get2rmtEntry px = EMol.ok := by
    simp [Node.get2rmtEntry, hup.proxy, hup.connected]
  have hsome : (c.take k px).isSome = true := by
    simp [Cluster.take, hf.2, hentry, Node.get2rmtDequeue, hf.1]
  obtain ⟨c', hc'⟩ := Option.isSome_iff_exists.1 hsome
  exact ⟨c', .take hf.1 hx hc'⟩

theorem Own.exists_emit (hf : Front c (.hand k px x ret)) (hx : ours x = true)
    (ho : (c.node k).get2rmtSend x ret (fun _ => 0) 0 = some o) : ∃ c', Own unbind ours c c' := by
  have hh : c.hand k px = some (x, ret) := hf
  have hsome : (c.emit k px fun _ => 0).isSome = true := by simp [Cluster.emit, hh, ho]
  obtain ⟨c', hc'⟩ := Option.isSome_iff_exists.1 hsome
  exact ⟨c', .emit _ hh hx hc'⟩

theorem Own.exists_deliver {h : Hdr} {o : Node × ℤ} (hf : Front c (.chan m k h pay))
    (hh : oursHdr ours h = true)
    (ho : (c.node k).put2lcl ((c.node k).conf.nProxies m) h pay 0 = some o) :
    ∃ c', c.deliver unbind k m = some (c', o.2) ∧ Own unbind ours c c' := by
  obtain ⟨c', hd⟩ := deliver_of_put hf ho
  exact ⟨c', hd, .deliver hf hh hd⟩

/-! The rest of the cluster can let the proxy move that has the command. -/

theorem At.exists_take (hat : At ours c (.queue k px x)) (hx : ours x = true)
    (hup : ProxyUp (c.node k) px m) : ∃ c₁ c₂, Frame ours c c₁ ∧ Own unbind ours c₁ c₂ := by
  obtain ⟨c₁, hf, hfront⟩ := hat.exists_front
  obtain ⟨c₂, ho⟩ := Own.exists_take hfront hx (hf.up _ _ _ hup)
  exact ⟨c₁, c₂, hf, ho⟩

theorem At.exists_emit (hat : At ours c (.hand k px x ret)) (hx : ours x = true)
    (hsend : ∀ c₁, Frame ours c c₁ → ∃ o, (c₁.node k).get2rmtSend x ret (fun _ => 0) 0 = some o) :
    ∃ c₁ c₂, Frame ours c c₁ ∧ Own unbind ours c₁ c₂ := by
  obtain ⟨c₁, hf, hfront⟩ := hat.exists_front
  obtain ⟨o, ho⟩ := hsend c₁ hf
  obtain ⟨c₂, hown⟩ := Own.exists_emit hfront hx ho
  exact ⟨c₁, c₂, hf, hown⟩

theorem At.exists_deliver {h : Hdr} (hat : At ours c (.chan m k h pay)) (hh : oursHdr ours h = true)
    (hput : ∀ c₁, Frame ours c c₁ →
      ∃ o, (c₁.node k).put2lcl ((c₁.node k).conf.nProxies m) h pay 0 = some o) :
    ∃ c₁ c₂, Frame ours c c₁ ∧ Own unbind ours c₁ c₂ := by
  obtain ⟨c₁, hf, hfront⟩ := hat.exists_front
  obtain ⟨o, ho⟩ := hput c₁ hf
  obtain ⟨c₂, -, hown⟩ := Own.exists_deliver hfront hh ho
  exact ⟨c₁, c₂, hf, hown⟩

end Token

end Ours

end Cluster

end MolIpc
