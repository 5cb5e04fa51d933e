import JobShell.Proofs.Hub.Pending

/-!
What a hub completes with.

The status of a hub is settled by what was asked of it and by its children, whatever the order in
which they complete: it is the first status it was asked to take, or else that of the child created
last among those that completed with no subscriber, or else zero.
-/

namespace JobShell.Hub

open List Hubs Option Duty

open Note

/-- The status a hub leaves to its parent, if it completed with no subscriber. -/
def legacy (past : Notes) (hub : ℕ) : Option Int :=
  (completions past hub).head?.bind fun c => if c.2.isEmpty then some c.1 else none

/-- The status that a hub is to complete with. -/
def outcome (past : Notes) (hub : ℕ) : Int :=
  ((asks past hub).head? <|> ((children past hub).filterMap (legacy past)).getLast?).getD 0

/-- The last of the values that a function has on a list, found by its position. -/
lemma getLast?_filterMap {α β : Type} {f : α → Option β} {l : List α} {i : ℕ} {a : α} {b : β}
    (ha : l[i]? = some a) (hb : f a = some b)
    (hlast : ∀ j a', i < j → l[j]? = some a' → f a' = none) :
    (l.filterMap f).getLast? = some b := by
  obtain ⟨hi, rfl⟩ := List.getElem?_eq_some_iff.mp ha
  have hsplit : l = l.take i ++ l[i] :: l.drop (i + 1) := by
    rw [getElem_cons_drop, take_append_drop]
  have hnil : (l.drop (i + 1)).filterMap f = [] := by
    refine filterMap_eq_nil_iff.mpr fun a' hm => ?_
    obtain ⟨j, hj⟩ := mem_iff_getElem?.mp hm
    rw [getElem?_drop] at hj
    exact hlast (i + 1 + j) a' (by omega) hj
  rw [hsplit, filterMap_append, filterMap_cons_some hb, hnil]
  simp

namespace Scene

variable {κ : Type} {sc sc' : Scene κ} {slot : HubId} {h h' : Hub κ} {past os : Notes} {m n : ℕ}
  {latest : Option (ℕ × Int)} {d : Duty} {ds : List Duty} {free : Bool}

/-! ### What a hub has heard -/

/-- What a hub keeps of its children is what the last of those that reported has left. -/
def Keeps (past : Notes) (m : ℕ) : Option (ℕ × Int) → Prop
  | none => ∀ n ∈ reporters past m, legacy past n = none
  | some (i, status) => ∃ n, (children past m)[i]? = some n ∧ n ∈ reporters past m ∧
      legacy past n = some status ∧ ∀ j n', i < j → (children past m)[j]? = some n' →
        n' ∈ reporters past m → legacy past n' = none

/-- An open hub remembers what it was asked and what it heard. -/
structure Minds (past : Notes) (n : ℕ) (h : Hub κ) : Prop where
  requested : h.requested = (asks past n).head?
  sealed : h.isSealed = true ↔ .sealed n ∈ past ∨ asks past n ≠ []
  latest : Keeps past n h.latest

/-- Every open hub remembers, and waits for a child if it is sealed; and every hub that completed
did so as it should. -/
structure Tally (past : Notes) (sc : Scene κ) : Prop where
  minds : ∀ slot h, sc.hubs.get? slot = some h → h.status = none →
    Minds past (sc.tenant slot) h ∧ (h.isSealed = true → 0 < h.pending)
  settled : ∀ m status waiting, completions past m = [(status, waiting)] → status = outcome past m

lemma legacy_append (h : completions os n = []) : legacy (past ++ os) n = legacy past n := by
  rw [legacy, completions_append, h, append_nil, legacy]

lemma Keeps.append (hk : Keeps past m latest) (hl : Ledger past sc)
    (hs' : Sane (past ++ os) sc') (hl' : Ledger (past ++ os) sc') (hr : reporters os m = []) :
    Keeps (past ++ os) m latest := by
  have hreporters : reporters (past ++ os) m = reporters past m := by
    rw [reporters_append, hr, append_nil]
  have hlegacy : ∀ n ∈ reporters past m, legacy (past ++ os) n = legacy past n := fun n hn =>
    legacy_append (hs'.completions_eq_nil (hl.among m n hn).2)
  have hplace : ∀ {j n' : ℕ}, (children past m)[j]? = some n' →
      (children (past ++ os) m)[j]? = some n' := by
    intro j n' hj
    rw [children_append, getElem?_append_left (List.getElem?_eq_some_iff.mp hj).1, hj]
  rcases latest with _ | ⟨i, status⟩
  · intro n hn
    rw [hreporters] at hn
    rw [hlegacy n hn, hk n hn]
  · obtain ⟨n, hi, hn, hstatus, hlast⟩ := hk
    refine ⟨n, hplace hi, hreporters ▸ hn, (hlegacy n hn).trans hstatus, fun j n' hij hj hn' => ?_⟩
    rw [hreporters] at hn'
    -- one that reported has its position from before
    obtain ⟨j', hj'⟩ := mem_iff_getElem?.mp (hl.among m n' hn').1
    have hjj : j = j' := (getElem?_inj (List.getElem?_eq_some_iff.mp hj).1 (hl'.nodup m)).mp
      (hj.trans (hplace hj').symm)
    rw [hlegacy n' hn']
    exact hlast j n' hij (hjj ▸ hj') hn'

lemma Minds.append (hm : Minds past n h) (hl : Ledger past sc) (hs' : Sane (past ++ os) sc')
    (hl' : Ledger (past ++ os) sc') (ha : asks os n = []) (hsl : .sealed n ∉ os)
    (hr : reporters os n = []) : Minds (past ++ os) n h where
  requested := by rw [asks_append, ha, append_nil, hm.requested]
  sealed := by rw [hm.sealed, asks_append, ha, append_nil, mem_append, or_iff_left hsl]
  latest := hm.latest.append hl hs' hl' hr

lemma Minds.congr (hm : Minds past n h) (hr : h'.requested = h.requested)
    (hs : h'.isSealed = h.isSealed) (hl : h'.latest = h.latest) : Minds past n h' where
  requested := hr.trans hm.requested
  sealed := by rw [hs]; exact hm.sealed
  latest := by rw [hl]; exact hm.latest

/-- A child reports: it counts if nobody had subscribed and no later one has reported. -/
lemma Keeps.heard (hk : Keeps past m latest) (hnodup : (children past m).Nodup)
    {order : ℕ} {status : Int} {waiting : List ℕ} (hn : (children past m)[order]? = some n)
    (hc : completions past n = [(status, waiting)]) :
    Keeps (past ++ [.reported n m]) m
      (if waiting.isEmpty = true ∧ latest.all (·.1 ≤ order) then some (order, status)
        else latest) := by
  have hchildren : children (past ++ [.reported n m]) m = children past m := by
    rw [children_append]
    exact append_nil _
  have hlegacy : ∀ n', legacy (past ++ [.reported n m]) n' = legacy past n' := fun n' =>
    legacy_append rfl
  have hreporters : ∀ {n'}, n' ∈ reporters (past ++ [.reported n m]) m ↔
      n' ∈ reporters past m ∨ n' = n := by
    intro n'
    rw [reporters_append, reporters_reported, if_pos rfl, mem_append, mem_singleton]
  have hleft : legacy past n = if waiting.isEmpty then some status else none := by
    simp [legacy, hc]
  have hposition : ∀ {j}, (children past m)[j]? = some n → j = order := fun {j} hj =>
    (getElem?_inj (List.getElem?_eq_some_iff.mp hj).1 hnodup).mp (hj.trans hn.symm)
  -- a child is the last one that counts, if none after it has reported that does
  have hkeeps : ∀ {i n1 st}, (children past m)[i]? = some n1 → n1 ∈ reporters past m ∨ n1 = n →
      legacy past n1 = some st → (∀ j n', i < j → (children past m)[j]? = some n' →
        n' ∈ reporters past m → legacy past n' = none) → (i < order → legacy past n = none) →
      Keeps (past ++ [.reported n m]) m (some (i, st)) := by
    intro i n1 st hi hn1 hst hlast hnew
    refine ⟨n1, by rw [hchildren, hi], hreporters.mpr hn1, by rw [hlegacy, hst], ?_⟩
    intro j n' hj hj' hn'
    rw [hchildren] at hj'
    rw [hlegacy]
    rcases hreporters.mp hn' with hold | rfl
    · exact hlast j n' hj hj' hold
    · exact hnew (hposition hj' ▸ hj)
  by_cases hw : waiting.isEmpty = true
  · rw [if_pos hw] at hleft
    rcases latest with _ | ⟨i, st⟩
    · rw [if_pos ⟨hw, rfl⟩]
      exact hkeeps hn (.inr rfl) hleft (fun j n' _ _ hn' => hk n' hn')
        fun h => absurd h (lt_irrefl _)
    · obtain ⟨n1, hi, hn1, hst, hlast⟩ := hk
      by_cases hle : i ≤ order
      · rw [if_pos ⟨hw, by simpa using hle⟩]
        exact hkeeps hn (.inr rfl) hleft (fun j n' hj hj' hn' => hlast j n' (by omega) hj' hn')
          fun h => absurd h (lt_irrefl _)
      · rw [if_neg (by simp [hle])]
        exact hkeeps hi (.inl hn1) hst hlast fun h => absurd h.le hle
  · rw [if_neg hw] at hleft
    rw [if_neg fun hand => hw hand.1]
    rcases latest with _ | ⟨i, st⟩
    · intro n' hn'
      rw [hlegacy]
      rcases hreporters.mp hn' with hold | rfl
      · exact hk n' hold
      · exact hleft
    · obtain ⟨n1, hi, hn1, hst, hlast⟩ := hk
      exact hkeeps hi (.inl hn1) hst hlast fun _ => hleft

lemma Minds.heed (hm : Minds past (sc.tenant slot) h) (hl : Ledger past sc) (hs : Sane past sc)
    (ha : sc.Asked slot h d ds) :
    Minds (past ++ d.heeded past (sc.tenant slot)) (sc.tenant slot) (h.heed d) := by
  have hs' := hs.heeded ha.hub d ds
  have hl' := hl.heeded hs ha
  obtain ⟨hd, ht, hg, -⟩ := ha
  set n := sc.tenant slot
  cases d with
  | notify hub status =>
    have hasks : asks (past ++ [.asked n status]) n = asks past n ++ [status] := by
      rw [asks_append, asks_asked, if_pos rfl]
    refine ⟨?_, ?_, hm.latest.append hl hs' hl' rfl⟩
    · simp only [heed, heeded]
      rw [hasks, hm.requested]
      cases asks past n <;> rfl
    · simp only [heed, heeded]
      rw [hasks]
      simp
  | sealOff hub =>
    have hasks : asks (past ++ [.sealed n]) n = asks past n := by
      rw [asks_append]
      exact append_nil _
    refine ⟨?_, ?_, hm.latest.append hl hs' hl' rfl⟩
    · simp only [heed, heeded]
      rw [hasks, hm.requested]
    · simp [heed, heeded]
  | report p order status contributes =>
    cases ht
    obtain ⟨h1, child, waiting, -, -, hchild, -, hc, rfl, -⟩ := hl.report_top hs hd
    have hnotes : heeded past n (.report slot order status waiting.isEmpty) =
        [.reported child n] := by
      simp only [heeded]
      rw [hchild]
      rfl
    rw [hnotes]
    have hasks : asks (past ++ [.reported child n]) n = asks past n := by
      rw [asks_append]
      exact append_nil _
    refine ⟨?_, ?_, hm.latest.heard (hl.nodup n) hchild hc⟩
    · rw [hasks]
      exact hm.requested
    · have hnote : .sealed n ∉ [Note.reported child n] := by simp
      rw [hasks, mem_append, or_iff_left hnote]
      exact hm.sealed
  | deliver | settle => cases ht

/-- What an open hub would complete with, once all its children have reported. -/
lemma Minds.aggregate_eq (hm : Minds past n h)
    (hall : ∀ child ∈ children past n, child ∈ reporters past n) :
    h.aggregate = outcome past n := by
  have hlatest : h.latest.map (·.2) = ((children past n).filterMap (legacy past)).getLast? := by
    have hk := hm.latest
    rcases hl : h.latest with _ | ⟨i, status⟩ <;> rw [hl] at hk
    · have hnil : (children past n).filterMap (legacy past) = [] :=
        filterMap_eq_nil_iff.mpr fun child hc => hk child (hall child hc)
      rw [hnil]
      rfl
    · obtain ⟨child, hi, -, hst, hlast⟩ := hk
      refine (getLast?_filterMap hi hst fun j n' hj hj' => ?_).symm
      exact hlast j n' hj hj' (hall n' (mem_of_getElem? hj'))
  rw [aggregate, outcome, hm.requested, hlatest]

/-! ### The tally is kept -/

/-- What is noted does not concern what a hub was asked and heard. -/
def Mute (os : Notes) (n : ℕ) : Prop :=
  asks os n = [] ∧ .sealed n ∉ os ∧ reporters os n = []

lemma mute_heeded (past : Notes) (hn : n ≠ m) : Mute (d.heeded past m) n := by
  cases d with
  | notify hub status =>
    refine ⟨?_, by simp [heeded], rfl⟩
    simp only [heeded]
    rw [asks_asked, if_neg (Ne.symm hn)]
  | sealOff hub => exact ⟨rfl, by simpa [heeded] using hn, rfl⟩
  | report p order =>
    rcases hc : (children past m)[order]? with _ | child
    · simp [heeded, hc, Mute, asks, reporters, select]
    · simp only [heeded, hc, toList_some, map_cons, map_nil]
      refine ⟨rfl, by simp, ?_⟩
      rw [reporters_reported, if_neg (Ne.symm hn)]
  | deliver | settle => exact ⟨rfl, by simp [heeded], rfl⟩

/-- A hub that completed is asked nothing more and gets no more children. -/
lemma Change.closed (hs : Sane past sc) (hc : Change free past sc os sc')
    (hm : completions past m ≠ []) : asks os m = [] ∧ children os m = [] := by
  have hother : ∀ {k : HubId} {h : Hub κ}, sc.hubs.get? k = some h → h.status = none →
      m ≠ sc.tenant k := by
    rintro k h hg hn rfl
    exact hm ((hs.tells k h hg).running hn)
  have hheeded : ∀ {d : Duty} {n : ℕ}, m ≠ n →
      asks (d.heeded past n) m = [] ∧ children (d.heeded past n) m = [] := by
    intro d n hne
    refine ⟨(mute_heeded past hne).1, ?_⟩
    cases d with
    | report p order status contributes => simp [Duty.heeded, children, select]
    | _ => rfl
  cases hc with
  | created parent hp =>
    refine ⟨rfl, ?_⟩
    rcases hpar : parent.bind sc.openHub? with _ | p
    · rfl
    · obtain ⟨k, -, hopen⟩ := bind_eq_some_iff.mp hpar
      obtain ⟨h, hg, hn⟩ := bind_eq_some_iff.mp hopen
      split at hn
      · rename_i hst
        cases hn
        rw [children_created, if_neg (Ne.symm (hother hg (by simpa using hst)))]
      · cases hn
  | heeded ha => exact hheeded (hother ha.hub ha.running)
  | completed ha =>
    obtain ⟨ha, hch⟩ := hheeded (d := _) (hother ha.hub ha.running)
    rw [asks_append, children_append, ha, hch]
    exact ⟨rfl, rfl⟩
  | _ => exact ⟨rfl, rfl⟩

lemma outcome_append (ha : asks os m = []) (hch : children os m = [])
    (hc : ∀ n ∈ children past m, completions os n = []) :
    outcome (past ++ os) m = outcome past m := by
  have hlegacy : (children past m).filterMap (legacy (past ++ os)) =
      (children past m).filterMap (legacy past) :=
    filterMap_congr fun n hn => legacy_append (hc n hn)
  rw [outcome, asks_append, children_append, ha, hch, append_nil, append_nil, hlegacy, outcome]

lemma Tally.mind_rest (ht : Tally past sc) (hl : Ledger past sc) (hs' : Sane (past ++ os) sc')
    (hl' : Ledger (past ++ os) sc') {k : HubId} {hub old : Hub κ} (hold : sc.hubs.get? k = some old)
    (hst : hub.status = none) (hso : hub.status = old.status) (hr : hub.requested = old.requested)
    (hsl : hub.isSealed = old.isSealed) (hlt : hub.latest = old.latest)
    (hp : old.pending ≤ hub.pending) (hmute : Mute os (sc.tenant k)) :
    Minds (past ++ os) (sc.tenant k) hub ∧ (hub.isSealed = true → 0 < hub.pending) := by
  obtain ⟨hminds, hwaits⟩ := ht.minds k old hold (hso ▸ hst)
  obtain ⟨ha, hno, hrep⟩ := hmute
  refine ⟨(hminds.append hl hs' hl' ha hno hrep).congr hr hsl hlt, fun hsealed => ?_⟩
  exact (hwaits (hsl ▸ hsealed)).trans_le hp

/-- Completions that are noted now are of the hub in the slot; the others are settled. -/
lemma Tally.settle_rest (ht : Tally past sc) (hl : Ledger past sc) (hs : Sane past sc)
    (hc : Change free past sc os sc') (hs' : Sane (past ++ os) sc') {status : Int}
    {waiting : List ℕ}
    (hm : completions (past ++ os) m = [(status, waiting)]) (hos : completions os m = []) :
    status = outcome (past ++ os) m := by
  rw [completions_append, hos, append_nil] at hm
  have hne : completions past m ≠ [] := by simp [hm]
  obtain ⟨ha, hch⟩ := hc.closed hs hne
  rw [outcome_append ha hch fun n hn =>
    hs'.completions_eq_nil (hl.among m n (hl.closed m hne n hn)).2]
  exact ht.settled m status waiting hm

/-- What shows in a hub of what it was asked and heard. -/
def mindset (h : Hub κ) : Option Int × Option Int × Bool × Option (ℕ × Int) × ℕ :=
  (h.status, h.requested, h.isSealed, h.latest, h.pending)

lemma Tally.frame (ht : Tally past sc) (hl : Ledger past sc) (hs : Sane past sc)
    (hc : Change free past sc os sc') (hs' : Sane (past ++ os) sc') (hl' : Ledger (past ++ os) sc')
    (handles : sc'.handles = sc.handles)
    (hubs : ∀ k hub, sc'.hubs.get? k = some hub →
      ∃ old, sc.hubs.get? k = some old ∧ mindset hub = mindset old)
    (hmute : ∀ n, Mute os n) (hos : ∀ n, completions os n = []) : Tally (past ++ os) sc' where
  minds k hub hk hst := by
    obtain ⟨old, hold, hsame⟩ := hubs k hub hk
    simp only [mindset, Prod.mk.injEq] at hsame
    obtain ⟨hso, hr, hsl, hlt, hp⟩ := hsame
    rw [tenant_eq handles]
    exact ht.mind_rest hl hs' hl' hold hst hso hr hsl hlt hp.ge (hmute _)
  settled m status waiting hm := ht.settle_rest hl hs hc hs' hm (hos m)

section

variable (ht : Tally past sc) (hl : Ledger past sc) (hs : Sane past sc)
include ht hl hs

lemma Tally.created (parent : Option HubId)
    (hp : ∀ p, parent = some p → (sc.hubs.get? p).isSome = true)
    (hs' : Sane (past ++ [.created sc.handles.length (parent.bind sc.openHub?)])
      (sc.withHub parent)) :
    Tally (past ++ [.created sc.handles.length (parent.bind sc.openHub?)])
      (sc.withHub parent) := by
  have hl' := hl.create hs parent hp hs'
  refine ⟨fun k hub hk hst => ?_, fun m status waiting hm => ?_⟩
  · rcases create_cases hs.sound hp hk with ⟨rfl, p, order, rfl⟩ | ⟨hkn, old, hold, hcase⟩
    · -- nothing is noted of a number that was not given
      have hfresh : ∀ o ∈ past, sc.handles.length ∉ o.hubs := fun o ho hm =>
        (hs.noted o ho _ hm).false
      have hasks : asks past sc.handles.length = [] :=
        select_eq_nil (by intro o a hk; split at hk <;> cases hk; simp [Note.hubs]) hfresh
      have hsealed : .sealed sc.handles.length ∉ past := fun hm => hfresh _ hm (by simp [Note.hubs])
      rw [tenant_new rfl]
      refine ⟨⟨?_, ?_, ?_⟩, by simp⟩
      · rw [asks_append, hasks]
        rfl
      · rw [asks_append, hasks]
        simpa [asks, select] using hsealed
      · intro n hn
        rw [reporters_append, hs.fresh.2.2.2.1] at hn
        cases hn
    · rw [tenant_old rfl hkn]
      have hmute : Mute [.created sc.handles.length (parent.bind sc.openHub?)] (sc.tenant k) :=
        ⟨rfl, by simp, rfl⟩
      rcases hcase with rfl | rfl
      · exact ht.mind_rest hl hs' hl' hold hst rfl rfl rfl rfl le_rfl hmute
      · exact ht.mind_rest hl hs' hl' hold hst rfl rfl rfl rfl (Nat.le_succ _) hmute
  · exact ht.settle_rest hl hs (.created parent (.inr hp) : Change false past sc _ _) hs' hm rfl

section

variable (ha : sc.Asked slot h d ds)
include ha

lemma Tally.heeded (hw : ¬ (h.heed d).IsDue) :
    Tally (past ++ d.heeded past (sc.tenant slot))
      (sc.withUpdate slot (fun _ => h.heed d) ds) := by
  have hg := ha.hub
  have hs' := hs.heeded hg d ds
  have hl' := hl.heeded hs ha
  refine ⟨fun k hub hk hst => ?_, fun m status waiting hm => ?_⟩
  · rw [tenant_eq rfl]
    by_cases hks : k = slot
    · subst hks
      rw [get?_update_self hg] at hk
      cases hk
      refine ⟨(ht.minds k h hg ha.running).1.heed hl hs ha, fun hsealed => ?_⟩
      rw [Nat.pos_iff_ne_zero]
      exact fun hp => hw ⟨hp, hsealed⟩
    · rw [get?_update_of_ne _ _ hks] at hk
      have hne : sc.tenant k ≠ sc.tenant slot := fun he =>
        hks (tenant_inj (hs.handle slot h hg) (hs.handle k hub hk) he)
      exact ht.mind_rest hl hs' hl' hk hst rfl rfl rfl rfl le_rfl (mute_heeded past hne)
  · exact ht.settle_rest hl hs (.heeded ha hw : Change false past sc _ _) hs' hm
      (quiet_heeded past _ d m).1

lemma Tally.verdict_eq (hdue : (h.heed d).IsDue) :
    h.verdict d = outcome (past ++ d.heeded past (sc.tenant slot)) (sc.tenant slot) := by
  obtain ⟨hminds, hwaits⟩ := ht.minds slot h ha.hub ha.running
  have hopen : (h.heed d).status = none := (congrArg Prod.fst (aspect_heed h d)).trans ha.running
  have hall := (hl.heeded hs ha).all_reported (get?_update_self ha.hub _) hopen hdue.1
  have hagg := (hminds.heed hl hs ha).aggregate_eq hall
  rw [← hagg]
  cases d with
  | notify hub status =>
    -- it waited for no child, so it was not asked before
    have hp : h.pending = 0 := hdue.1
    have hunsealed : h.isSealed ≠ true := fun hsealed => by
      have := hwaits hsealed
      omega
    have hnone : h.requested = none := by
      rw [hminds.requested]
      rcases hasks : asks past (sc.tenant slot) with _ | ⟨status, rest⟩
      · rfl
      · exact absurd (hminds.sealed.mpr (.inr (by simp [hasks]))) hunsealed
    simp [verdict, heed, aggregate, hnone]
  | sealOff | report => rfl
  | deliver | settle => cases ha.target

lemma Tally.completed (hdue : (h.heed d).IsDue) :
    Tally (past ++ (d.heeded past (sc.tenant slot) ++
        [.completed (sc.tenant slot) (h.verdict d) h.keys]))
      (sc.withUpdate slot (fun _ => h.fulfil d) (h.duties slot (h.verdict d) ++ ds)) := by
  have hg := ha.hub
  have hc : Change false past sc _ _ := .completed ha hdue
  have hs' := hs.change hc
  have hl' := hl.change hs hc
  have hverdict := ht.verdict_eq hl hs ha hdue
  refine ⟨fun k hub hk hopen => ?_, fun m status waiting hm => ?_⟩
  · rw [tenant_eq rfl]
    by_cases hks : k = slot
    · subst hks
      rw [get?_update_self hg] at hk
      cases hk
      rw [(h.fulfil_eq d).1] at hopen
      cases hopen
    · rw [get?_update_of_ne _ _ hks] at hk
      have hne : sc.tenant k ≠ sc.tenant slot := fun he =>
        hks (tenant_inj (hs.handle slot h hg) (hs.handle k hub hk) he)
      obtain ⟨hasks, hsl, hr⟩ := mute_heeded past (d := d) hne
      refine ht.mind_rest hl hs' hl' hk hopen rfl rfl rfl rfl le_rfl ⟨?_, ?_, ?_⟩
      · rw [asks_append, hasks]
        rfl
      · simpa using hsl
      · rw [reporters_append, hr]
        rfl
  · by_cases hmt : m = sc.tenant slot
    · subst hmt
      have hnil : completions past (sc.tenant slot) = [] := (hs.tells slot h hg).running ha.running
      rw [completions_append, completions_append, hnil, (quiet_heeded past _ d _).1,
        completions_completed, if_pos rfl] at hm
      cases hm
      rw [hverdict, ← append_assoc]
      refine (outcome_append rfl rfl fun n hn => ?_).symm
      -- a hub is not among its own children, for they have completed
      have hl1 := hl.heeded hs ha
      have hopen : (h.heed d).status = none :=
        (congrArg Prod.fst (aspect_heed h d)).trans ha.running
      have hreported := hl1.all_reported (get?_update_self hg _) hopen hdue.1 n hn
      have hne : sc.tenant slot ≠ n := by
        rintro rfl
        refine (hl1.among _ _ hreported).2 ?_
        rw [completions_append, hnil, (quiet_heeded past _ d _).1]
        rfl
      rw [completions_completed, if_neg hne]
    · refine ht.settle_rest hl hs hc hs' hm ?_
      rw [completions_append, (quiet_heeded past _ d m).1, completions_completed,
        if_neg (Ne.symm hmt)]
      rfl

end

lemma Tally.change (hc : Change false past sc os sc') : Tally (past ++ os) sc' := by
  have hs' := hs.change hc
  have hl' := hl.change hs hc
  have hkeep : ∀ k hub, sc.hubs.get? k = some hub →
      ∃ old, sc.hubs.get? k = some old ∧ mindset hub = mindset old := fun k hub hk => ⟨hub, hk, rfl⟩
  have hself := hc
  cases hc with
  | created parent hp => exact ht.created hl hs parent (hp.resolve_left Bool.false_ne_true) hs'
  | attached hf parent child => cases hf
  | heeded ha hw => exact ht.heeded hl hs ha hw
  | completed ha hdue => exact ht.completed hl hs ha hdue
  | subscribed | removed | retained | released | called =>
    refine ht.frame hl hs hself hs' hl' rfl (exists_alike_update ?_) (fun n => ⟨rfl, by simp, rfl⟩)
      fun _ => rfl
    exact fun _ _ => rfl
  | notified | sealing | flushed | idle | skipped =>
    exact ht.frame hl hs hself hs' hl' rfl hkeep (fun n => ⟨rfl, by simp, rfl⟩) fun _ => rfl
  | dropped =>
    refine ht.frame hl hs hself hs' hl' rfl (fun k hub hk => ?_) (fun n => ⟨rfl, by simp, rfl⟩)
      fun _ => rfl
    rw [Slab.get?_erase] at hk
    split at hk
    · cases hk
    · exact hkeep k hub hk

end

lemma Run.tally (run : Run false past sc) : Tally past sc := by
  induction run with
  | start _ empty => exact ⟨by simp [empty], by simp [completions, select]⟩
  | move run hc ih => exact ih.change run.ledger run.sane hc

end Scene

namespace Session

variable {past : Notes} {s : Session}

/-- Whatever the order in which its children complete, a hub that completes does so with the first
status it was asked to take while it had none, or else with that of the child created last among
those that completed with no subscriber, or else with zero. When nothing is in hand, a hub has
completed if it was sealed or asked, at whatever moment, and all its children have completed. -/
theorem Course.completes_with_outcome (run : Course false past s) :
    (∀ m status waiting, .completed m status waiting ∈ past → status =
      ((asks past m).head? <|> ((children past m).filterMap (legacy past)).getLast?).getD 0) ∧
    (s.stack = [] → ∀ m, (.sealed m ∈ past ∨ asks past m ≠ []) →
      (∀ n ∈ children past m, completions past n ≠ []) →
      ∃ waiting, .completed m (outcome past m) waiting ∈ past) := by
  have hsane := run.run.sane
  have hledger := run.run.ledger
  have htally := run.run.tally
  have hsettled : ∀ m status waiting, .completed m status waiting ∈ past →
      status = outcome past m := by
    intro m status waiting hm
    exact htally.settled m status waiting (hsane.completions_eq (mem_completions.mpr hm))
  refine ⟨hsettled, fun hstack m hasked hall => ?_⟩
  -- a hub that was sealed or asked waits for a child, which has completed and reported
  have hdone : completions past m ≠ [] := by
    intro hopen
    have hlt : m < s.scene.handles.length := by
      rcases hasked with hs | ha
      · exact hsane.noted _ hs m (by simp [Note.hubs])
      · obtain ⟨status, hstatus⟩ := exists_mem_of_ne_nil _ ha
        obtain ⟨o, ho, hk⟩ := mem_select.mp hstatus
        split at hk <;> cases hk
        exact hsane.noted _ ho m (by simp [Note.hubs])
    obtain ⟨slot, h, hg, hst, rfl, -⟩ := hsane.exists_open hlt hopen
    obtain ⟨hminds, hwaits⟩ := htally.minds slot h hg hst
    have hpos := hwaits (hminds.sealed.mpr hasked)
    have hsum := (hledger.kin slot h hg hst).pending
    have hreported : (children past (s.scene.tenant slot)).length ≤
        (reporters past (s.scene.tenant slot)).length := by
      refine (subperm_of_subset (hledger.nodup _) fun n hn => ?_).length_le
      by_contra hnot
      obtain ⟨p, order, hin, -⟩ := hledger.due _ n hn (hall n hn) hnot
      simp [scene, hstack, dutiesOf, Scene.places] at hin
    omega
  obtain ⟨⟨status, waiting⟩, hmem⟩ := exists_mem_of_ne_nil _ hdone
  have hm := mem_completions.mp hmem
  exact ⟨waiting, hsettled m status waiting hm ▸ hm⟩

/-- A hub with four children, sealed after two of them completed; the last to be created completes
first and has a subscriber, and the next to last completes last. -/
def contest : List Step :=
  [.create none, .create (some 0), .create (some 0), .create (some 0), .create (some 0),
    .subscribe 4 "d" [], .notify 4 40, .notify 1 10, .sealOff 0, .notify 2 20, .notify 3 30]

/-- The hub completes with the status of the child before the last. -/
theorem completes_with_outcome_contest :
    ∃ waiting, .completed 0 (outcome (trace false 40 contest [] {}).1 0) waiting ∈
        (trace false 40 contest [] {}).1 ∧ outcome (trace false 40 contest [] {}).1 0 = 30 := by
  have hstart : Course false [] {} := .start
  have hrun := (hstart.trace 40 contest).completes_with_outcome
  have hstack : (trace false 40 contest [] {}).2.stack = [] := rfl
  obtain ⟨waiting, hw⟩ := hrun.2 hstack 0 (.inl (by decide +kernel)) (by decide +kernel)
  exact ⟨waiting, hw, by decide +kernel⟩

end Session

end JobShell.Hub
