import JobShell.Proofs.Engine.Machine
import JobShell.Proofs.Interpreter

/-!
How a compound command comes to its end.

While parts of a compound command run one after the other, the end of one part is still being told
when the next one starts: its report stands on the stack below what the next one does. The rules
here follow a hub from part to part up to its completion, whatever else there is in the engine.
-/

namespace JobShell

open Machine Interpreter Hub

/-! ### Hubs -/

/-- Whom a hub tells of its completion. -/
structure Hub.Face (κ : Type) where
  parent : Option HubId
  order : ℕ
  subscribers : List (ℕ × κ)
  retained : ℕ

namespace Hub

variable {κ : Type} {h h' : Hub κ}

def face (h : Hub κ) : Face κ := ⟨h.parent, h.order, h.subscribers, h.retained⟩

lemma duties_of_face (hf : h'.face = h.face) (i : HubId) (s : Int) :
    h'.duties i s = h.duties i s := by
  simp only [face, Face.mk.injEq] at hf
  simp only [duties, hf]

/-- A hub that waits for so many children and has heard nothing yet, sealed or not. -/
structure Standing (n : ℕ) (z : Bool) (h : Hub κ) : Prop where
  status : h.status = none
  requested : h.requested = none
  latest : h.latest = none
  isSealed : h.isSealed = z
  pending : h.pending = n

lemma Standing.subscribed {n : ℕ} {z : Bool} (hs : h.Standing n z) (callback : κ) :
    (h.subscribed callback).Standing n z :=
  ⟨hs.status, hs.requested, hs.latest, hs.isSealed, hs.pending⟩

end Hub

/-- Captured output, by key. -/
abbrev Captures := Multiset (ℕ × Buffers)

namespace Engine

/-! ### Rest -/

/-- An engine in the setting and the state of an interpreter, with these buffers. -/
structure Mirrors (k : Setting) (σ : State) (C : Captures) (b : Engine) : Prop where
  config : b.config = k.config
  services : b.services = k.services
  stores : b.stores = σ.stores
  console : b.console = σ.console
  world : b.system.world = σ.world
  sound : b.captures.Sound
  captures : b.captures.entries = C

/-- The same between two jobs. -/
structure Rests (k : Setting) (σ : State) (C : Captures) (b : Engine) : Prop
    extends Mirrors k σ C b where
  jobs : b.jobs = []
  table : b.table.entries = []
  owner : b.owner = none

variable {k : Setting} {σ σ1 σ' : State} {C C' : Captures} {b e : Engine}
  {E E' F K R : Multiset HubEntry} {ts : List Task} {S D : List Work} {H i c X : HubId}
  {h hc : Hub Callback} {s s1 : Int} {w : Waiter} {P : Machine → Prop} {t : Task} {n : ℕ} {z : Bool}
  {start : Option HubId → Engine → HubId × Engine × List Duty}
  {act : HubId → Engine → Engine × List Work}

lemma Mirrors.write (hm : Mirrors k σ C b) (channel : Channel) (data : Bytes) :
    Mirrors k (σ.write channel data) C (b.write channel data) :=
  { hm with
    console := by simp only [Engine.write, State.write, hm.console, hm.world]
    world := by simp only [Engine.write, State.write, hm.console, hm.world] }

lemma Mirrors.notice (hm : Mirrors k σ C b) (info : JobInfo) :
    Mirrors k (σ.notice info) C (b.notice info) :=
  { hm with
    console := by simp only [Engine.notice, State.notice, hm.console, hm.world]
    world := by simp only [Engine.notice, State.notice, hm.console, hm.world] }

lemma Rests.write (hr : Rests k σ C b) (channel : Channel) (data : Bytes) :
    Rests k (σ.write channel data) C (b.write channel data) :=
  { hr.toMirrors.write channel data with jobs := hr.jobs, table := hr.table, owner := hr.owner }

lemma Rests.setStores (hr : Rests k σ C b) (f : Stores → Stores) :
    Rests k { σ with stores := f σ.stores } C { b with stores := f b.stores } :=
  { hr with stores := congrArg f hr.stores }

lemma Mirrors.valueOf (hm : Mirrors k σ C b) (store : StoreId) (name : String) :
    b.valueOf store name = σ.valueOf store name := by
  rcases hv : σ.stores.get? store name with _ | v
  all_goals simp only [Engine.valueOf, State.valueOf, hm.stores, hm.world, hv]

/-! ### Completion -/

/-- The duties that drop hubs. -/
def settles (G : List HubEntry) : List Work := G.map fun p => .duty (.settle p.1)

/-- A hub has just completed. What follows from that is on the stack, and so is the dropping of
hubs that are spent. -/
def Completed (k : Setting) (σ : State) (C : Captures) (H : HubId)
    (f : Hub.Face Callback) (s : Int) (F : Multiset HubEntry) (S : List Work) (m : Machine) :
    Prop :=
  ∃ b e h, ∃ G : List HubEntry, Rests k σ C b ∧ h.face = f ∧ h.status = some s ∧
    (∀ p ∈ G, p.2.isSpent = true) ∧ Holds b ({(H, h)} + (↑G + F)) [] e ∧
    m = ⟨e, (h.duties H s).map .duty ++ (settles G ++ S)⟩

/-- Where a hub stands when its next part may start: no part has run, or the end of the last one
is being told. -/
inductive Phase (H : HubId) (h : Hub Callback) : List Work → Multiset HubEntry → Prop where
  | fresh (hs : h.Standing 0 false) : Phase H h [] 0
  | told {i : HubId} {a : Hub Callback} {s : Int} {order : ℕ} {G : List HubEntry}
      (hs : h.Standing 1 false) (ha : a.isSpent = true) (hG : ∀ p ∈ G, p.2.isSpent = true) :
      Phase H h (.duty (.deliver i s []) :: .duty (.report H order s false) ::
        .duty (.settle i) :: settles G) ({(i, a)} + ↑G)

lemma Phase.standing (hp : Phase H h D K) : ∃ n, h.Standing n false := by
  cases hp with
  | fresh hs => exact ⟨0, hs⟩
  | told hs _ _ => exact ⟨1, hs⟩

/-- A hub that is given its status completes when the end of its last part has been told. -/
lemma Phase.notify (hp : Phase H h D K) (hr : Rests k σ C b)
    (hh : Holds b ({(H, h)} + (K + F)) [] e) :
    Leads (Completed k σ C H h.face s F S) ⟨e, .duty (.notify H s) :: (D ++ S)⟩ := by
  cases hp with
  | fresh hs =>
    refine leads_due hh rfl hs.status ⟨hs.pending, rfl⟩ rfl fun e' h' => .here ?_
    exact ⟨b, e', { h with status := some s }, [], hr, rfl, rfl, by simp, h', rfl⟩
  | @told i a s' order G hs ha hG =>
    have hwaits : h.pending ≠ 0 := by simp [hs.pending]
    refine leads_waiting hh rfl hs.status (fun hd => hwaits hd.1) fun e1 h1 => ?_
    refine leads_deliver_nil ?_
    have hverdict : (h.heed (.notify H s)).verdict (.report H order s' false) = s := by
      simp [verdict, heed, aggregate, heard, hs.requested]
    refine leads_due h1 rfl hs.status ⟨?_, rfl⟩ hverdict fun e2 h2 => .here ?_
    · simp [heed, heard, hs.pending]
    · refine ⟨b, e2, _, (i, a) :: G, hr, ?_, congrArg some hverdict,
        List.forall_mem_cons.mpr ⟨ha, hG⟩, h2, rfl⟩
      rfl

/-- While another part is under way the end of the last one is told. -/
lemma Phase.unwind (hp : Phase H h D K) {g : Hub Callback}
    (hh : Holds b ({(H, g)} + (K + F)) ts e) (hs : g.status = none) (hl : g.latest = none)
    (hn : g.pending = h.pending + 1)
    (next : ∀ e', Holds b ({(H, { g with pending := 1 })} + F) ts e' → Leads P ⟨e', S⟩) :
    Leads P ⟨e, D ++ S⟩ := by
  cases hp with
  | fresh hst =>
    have hg : { g with pending := 1 } = g := by rw [hst.pending] at hn; cases g; cases hn; rfl
    exact next e (hh.congr (by simp [hg]))
  | @told i a s order G hst ha hG =>
    rw [hst.pending] at hn
    refine leads_deliver_nil ?_
    have hwaits : g.pending - 1 ≠ 0 := by omega
    refine leads_waiting hh rfl hs (fun hd => hwaits hd.1) fun e1 h1 => ?_
    have hg : g.heed (.report H order s false) = { g with pending := 1 } := by
      simp [heed, heard, hn]
    rw [hg] at h1
    have h1' : Holds b ({(i, a)} + (↑G + ({(H, { g with pending := 1 })} + F))) ts e1 :=
      h1.congr (by ac_rfl)
    refine leads_settle_spent h1' ha fun e2 h2 => ?_
    exact leads_settle_all hG h2 next

/-! ### Parts -/

/-- A hub is created, under a parent that has no status yet or without one. -/
inductive Adopts : Option HubId → Multiset HubEntry → Multiset HubEntry → Prop where
  | root (E : Multiset HubEntry) : Adopts none E E
  | child {i : HubId} {h : Hub Callback} (hn : h.status = none) (R : Multiset HubEntry) :
      Adopts (some i) ({(i, h)} + R) ({(i, h.withChild)} + R)

lemma Holds.createHub (hh : Holds b E ts e) {parent : Option HubId} (ha : Adopts parent E E') :
    ∃ order, Holds b ({((e.createHub parent).1, { parent, order })} + E') ts
      (e.createHub parent).2 := by
  have hs := Hubs.Sound.create hh.sound parent
  cases ha with
  | root =>
    obtain ⟨hid, he⟩ := Hubs.create_none hh.sound
    rw [hh.entries] at he
    exact ⟨0, hh.update hs he⟩
  | child hn R =>
    obtain ⟨hid, he⟩ := Hubs.create_some hh.sound hh.entries hn
    exact ⟨_, hh.update hs he⟩

lemma Holds.follow (hh : Holds b ({(c, hc)} + R) ts e) (hn : hc.status = none) (H : HubId)
    (callback : Callback) :
    ∃ e', e.follow H c callback = (e', []) ∧
      Holds b ({(c, hc.subscribed callback)} + R) ts e' := by
  obtain ⟨hubs, hsub, hsound, he⟩ := Hubs.subscribe_entries hh.entries callback
  refine ⟨{ e with hubs }, ?_, hh.update (hsound hh.sound) he⟩
  simp [Engine.follow, Engine.subscribe, hsub, Hubs.status?_of_entries hh.entries, hn]

/-- A hub with children completes once whoever waits has taken this task. -/
def Performs (k : Setting) (b : Engine) (K : Multiset HubEntry) (t : Task) (H : HubId) (n : ℕ)
    (z : Bool) (s : Int) (σ' : State) (C' : Captures) : Prop :=
  ∀ h F e X w S, h.Standing n z → Awaited X ({(H, h)} + F) → Holds b ({(H, h)} + (K + F)) [t] e →
    Leads (Completed k σ' C' H h.face s F (.await X w :: S)) ⟨e, .await X w :: S⟩

/-- What is started under a hub of its own, and how that hub will complete. -/
def Starts (k : Setting) (σ : State) (C : Captures) (s : Int) (σ' : State)
    (C' : Captures)
    (start : Option HubId → Engine → HubId × Engine × List Duty) : Prop :=
  ∀ b E E' parent e, Rests k σ C b → Holds b E [] e → Adopts parent E E' →
    ∃ b' e' c h n z K t, start parent e = (c, e', []) ∧ h.Standing n z ∧ h.parent = parent ∧
      h.subscribers = [] ∧ h.retained = 0 ∧ Holds b' ({(c, h)} + (K + E')) [t] e' ∧
      Performs k b' K t c n z s σ' C'

/-- What a hub does next, whatever phase it is in, brings it to its end. -/
def Ends (k : Setting) (C : Captures) (σ : State) (s : Int) (σ' : State)
    (act : HubId → Engine → Engine × List Work) : Prop :=
  ∀ b H h D K F e X w S, Rests k σ C b → Phase H h D K → Awaited X ({(H, h)} + F) →
    Holds b ({(H, h)} + (K + F)) [] e →
    Leads (Completed k σ' C H h.face s F (.await X w :: S))
      ⟨(act H e).1, (act H e).2 ++ (D ++ .await X w :: S)⟩

lemma Performs.part (hp : Performs k b K t c n z s1 σ1 C) (hst : hc.Standing n z)
    (hpar : hc.parent = some H) {key : ℕ} {callback : HubId → Callback}
    (hsub : hc.subscribers = [(key, callback H)]) (hret : hc.retained = 0)
    (he : Ends k C σ1 s σ' fun H e => e.call s1 (callback H)) :
    Performs k b ({(c, hc)} + K) t H 1 false s σ' C := by
  intro h F e X w S hs ha hh
  have hh' : Holds b ({(c, hc)} + (K + ({(H, h)} + F))) [t] e := hh.congr (by ac_rfl)
  refine (hp hc _ e X w S hst (ha.add _) hh').bind ?_
  rintro _ ⟨b', e', g, G, hr, hface, hstatus, hG, hh1, rfl⟩
  have hduties : g.duties c s1 = [.deliver c s1 [key], .report H hc.order s1 false, .settle c] := by
    rw [duties_of_face hface]
    simp [duties, hpar, hsub]
  have hgsub : g.subscribers = [(key, callback H)] := by
    rw [← hsub]; exact congrArg Face.subscribers hface
  have hgret : g.retained = 0 := by rw [← hret]; exact congrArg Face.retained hface
  have hspent : ({ g with subscribers := [] } : Hub Callback).isSpent = true := by
    simp [isSpent, hstatus, hgret]
  rw [hduties]
  refine leads_deliver_one hh1 hgsub fun e2 h2 => ?_
  exact he b' H h _ _ F e2 X w S hr (.told hs hspent hG) ha (h2.congr (by ac_rfl))

/-- When the last part has completed, so has the hub it is a part of. -/
lemma Performs.last (hp : Performs k b K t c n z s σ' C') (hst : hc.Standing n z)
    (hpar : hc.parent = some H) (hsub : hc.subscribers = []) (hret : hc.retained = 0) :
    Performs k b ({(c, hc)} + K) t H 1 true s σ' C' := by
  intro h F e X w S hs ha hh
  have hh' : Holds b ({(c, hc)} + (K + ({(H, h)} + F))) [t] e := hh.congr (by ac_rfl)
  refine (hp hc _ e X w S hst (ha.add _) hh').bind ?_
  rintro _ ⟨b', e', g, G, hr, hface, hstatus, hG, hh1, rfl⟩
  have hduties : g.duties c s = [.deliver c s [], .report H hc.order s true, .settle c] := by
    rw [duties_of_face hface]
    simp [duties, hpar, hsub]
  have hgsub : g.subscribers = [] := by rw [← hsub]; exact congrArg Face.subscribers hface
  have hgret : g.retained = 0 := by rw [← hret]; exact congrArg Face.retained hface
  have hspent : g.isSpent = true := by simp [isSpent, hstatus, hgsub, hgret]
  have hh2 : Holds b' ({(H, h)} + ({(c, g)} + ↑G + F)) [] e' := hh1.congr (by ac_rfl)
  rw [hduties]
  refine leads_deliver_nil ?_
  -- the status is taken from the part, for nothing else was asked for
  have hverdict : h.verdict (.report H hc.order s true) = s := by
    simp [verdict, heed, aggregate, heard, hs.requested, hs.latest]
  refine leads_due hh2 rfl hs.status ⟨?_, hs.isSealed⟩ hverdict fun e3 h3 => .here ?_
  · simp [heed, heard, hs.pending]
  · refine ⟨b', e3, _, (c, g) :: G, hr, ?_, congrArg some hverdict,
      List.forall_mem_cons.mpr ⟨hspent, hG⟩, h3, rfl⟩
    rfl

/-- A part is started while the end of the last one is being told. -/
lemma Ends.part
    (hs : Starts k σ C s1 σ1 C start) (callback : HubId → Callback)
    (he : Ends k C σ1 s σ' fun H e => e.call s1 (callback H))
    (hact : ∀ H e c e1 e2, start (some H) e = (c, e1, []) →
      e1.follow H c (callback H) = (e2, []) →
      ∀ P S, Leads P ⟨e2, S⟩ → Leads P ⟨(act H e).1, (act H e).2 ++ S⟩) :
    Ends k C σ s σ' act := by
  intro b H h D K F e X w S hr hp ha hh
  obtain ⟨m, hst⟩ := hp.standing
  obtain ⟨b1, e1, c, hc, n, z, Kc, t, hstart, hstc, hpar, hsub, hret, hh1, hperf⟩ :=
    hs b _ _ (some H) e hr hh (.child hst.status _)
  obtain ⟨e2, hfollow, hh2⟩ := hh1.follow hstc.status H (callback H)
  refine hact H e c e1 e2 hstart hfollow _ _ ?_
  have hh3 : Holds b1 ({(H, h.withChild)} + (K + ({(c, hc.subscribed (callback H))} + Kc + F))) [t]
      e2 := hh2.congr (by ac_rfl)
  refine hp.unwind hh3 hst.status hst.latest rfl fun e3 h3 => ?_
  have hone : (hc.subscribed (callback H)).subscribers = [(hc.nextKey, callback H)] := by
    simp [subscribed, hsub]
  have hpart := hperf.part (hstc.subscribed (callback H)) hpar hone hret he
  exact hpart { h.withChild with pending := 1 } F e3 X w S
    ⟨hst.status, hst.requested, hst.latest, hst.isSealed, rfl⟩ (ha.update hst.status) h3

lemma Ends.last
    (hs : Starts k σ C s σ' C start) (hact : ∀ H e c e1, start (some H) e = (c, e1, []) →
      act H e = (e1, [.duty (.sealOff H)])) :
    Ends k C σ s σ' act := by
  intro b H h D K F e X w S hr hp ha hh
  obtain ⟨m, hst⟩ := hp.standing
  obtain ⟨b1, e1, c, hc, n, z, Kc, t, hstart, hstc, hpar, hsub, hret, hh1, hperf⟩ :=
    hs b _ _ (some H) e hr hh (.child hst.status _)
  rw [hact H e c e1 hstart]
  have hh2 : Holds b1 ({(H, h.withChild)} + (K + ({(c, hc)} + Kc + F))) [t] e1 :=
    hh1.congr (by ac_rfl)
  refine leads_waiting hh2 rfl hst.status (fun hd => Nat.succ_ne_zero _ hd.1) fun e2 h2 => ?_
  refine hp.unwind h2 hst.status hst.latest rfl fun e3 h3 => ?_
  exact hperf.last hstc hpar hsub hret { h.withChild with isSealed := true, pending := 1 } F e3 X w
    S ⟨hst.status, hst.requested, hst.latest, rfl, rfl⟩ (ha.update hst.status) h3

/-! ### Ways to start -/

lemma Starts.deferred (task : HubId → Task) (he : Ends k C σ s σ' fun H e => e.runTask (task H)) :
    Starts k σ C s σ' C fun parent e =>
      ((e.createHub parent).1, (e.createHub parent).2.defer (task (e.createHub parent).1), []) := by
  intro b E E' parent e hr hh ha
  obtain ⟨order, hh1⟩ := hh.createHub ha
  refine ⟨b, _, _, { parent, order }, 0, false, 0, _, rfl, ⟨rfl, rfl, rfl, rfl, rfl⟩, rfl, rfl, rfl,
    (hh1.defer _).congr (by simp), ?_⟩
  intro h F e1 X w S hst hX hh2
  rw [zero_add] at hh2
  refine leads_turn hh2 hX fun e2 h2 => ?_
  exact he b _ h [] 0 F e2 X w S hr (.fresh hst) hX (h2.congr (by rw [zero_add]))

lemma Starts.compound
    (hs : Starts k σ C s1 σ1 C start) (callback : HubId → Callback)
    (he : Ends k C σ1 s σ' fun H e => e.call s1 (callback H)) :
    Starts k σ C s σ' C fun parent e =>
      let (hub, e) := e.createHub parent
      let (child, e, _) := start (some hub) e
      (hub, e.follow hub child (callback hub)) := by
  intro b E E' parent e hr hh ha
  obtain ⟨order, hh1⟩ := hh.createHub ha
  obtain ⟨b1, e1, c, hc, n, z, Kc, t, hstart, hstc, hpar, hsub, hret, hh2, hperf⟩ :=
    hs b _ _ (some (e.createHub parent).1) _ hr hh1 (.child rfl _)
  obtain ⟨e2, hfollow, hh3⟩ := hh2.follow hstc.status (e.createHub parent).1
    (callback (e.createHub parent).1)
  have hone : (hc.subscribed (callback (e.createHub parent).1)).subscribers =
      [(hc.nextKey, callback (e.createHub parent).1)] := by
    simp [subscribed, hsub]
  refine ⟨b1, e2, _, withChild { parent, order }, 1, false, _, t, ?_,
    ⟨rfl, rfl, rfl, rfl, rfl⟩, rfl, rfl, rfl, hh3.congr (by ac_rfl),
    hperf.part (hstc.subscribed _) hpar hone hret he⟩
  simp only [hstart, hfollow]

/-- What is started and waited for comes to its end, and nothing is left of its hubs. -/
lemma Starts.awaited
    (hs : Starts k σ C s σ' C' start) (hr : Rests k σ C b) (hh : Holds b E [] e) :
    ∃ i e1, start none e = (i, e1, []) ∧ ∀ P w S,
      (∀ b' e', Rests k σ' C' b' → Holds b' E [] e' →
        Leads P ⟨(e'.answer (.ok s) w).1, (e'.answer (.ok s) w).2 ++ S⟩) →
      Leads P ⟨{ e1 with hubs := e1.hubs.retain i }, .await i w :: S⟩ := by
  obtain ⟨b1, e1, i, g, n, z, K, t, hstart, hst, hpar, hsub, hret, hh1, hperf⟩ :=
    hs b _ _ none e hr hh (.root E)
  refine ⟨i, e1, hstart, fun P w S next => ?_⟩
  have hh2 := hh1.update (Hubs.Sound.retain hh1.sound i) (Hubs.entries_update hh1.entries _)
  have hst' : ({ g with retained := g.retained + 1 } : Hub Callback).Standing n z :=
    ⟨hst.status, hst.requested, hst.latest, hst.isSealed, hst.pending⟩
  have haw : Awaited i ({(i, { g with retained := g.retained + 1 })} + E) :=
    ⟨_, Multiset.mem_add.mpr (Or.inl (Multiset.mem_singleton_self _)), hst.status⟩
  refine (hperf _ E _ i w S hst' haw hh2).bind ?_
  rintro _ ⟨b3, e3, a, G, hr3, hface, hstatus, hG, hh3, rfl⟩
  have hasub : a.subscribers = [] := by rw [← hsub]; exact congrArg Face.subscribers hface
  have haret : a.retained = 1 :=
    (congrArg Face.retained hface).trans (congrArg (· + 1) hret)
  have hapar : a.parent = none := by rw [← hpar]; exact congrArg Face.parent hface
  have hduties : a.duties i s = [.deliver i s [], .settle i] := by
    simp [duties, hasub, hapar]
  rw [hduties]
  refine leads_deliver_nil ?_
  refine leads_settle_unspent hh3 (by simp [isSpent, haret]) fun e4 h4 => ?_
  refine leads_settle_all hG (h4.congr (add_left_comm _ _ _)) fun e5 h5 => ?_
  exact leads_await_done h5 hstatus hasub haret fun e6 h6 => next b3 e6 hr3 h6

end Engine

end JobShell
