import JobShell.Proofs.Hub.Ending
import Mathlib.Data.List.Perm.Subperm

/-!
Whom a hub still waits for.

Where children are attached only by creating them below a hub that is there, a hub that has no
status counts as pending exactly the children that have not reported to it. A child reports once,
after its own completion and after the subscribers that waited then were called or removed, and a
hub gets a status only when all its children have reported.
-/

namespace JobShell

open List Hubs Option

namespace Hubs

variable {κ : Type} {hs : Hubs κ} {p : HubId} {h : Hub κ}

lemma get?_create_child (sound : hs.Sound) (hg : hs.get? p = some h) (hn : h.status = none)
    (k : HubId) : (hs.create (some p)).2.get? k =
      if k = hs.next then some { parent := some p, order := h.nextOrder }
      else if k = p then some h.withChild else hs.get? k := by
  have hne := Slab.Sound.ne_next sound hg
  have hins : ∀ k, (hs.insert {}).get? k = if k = hs.next then some {} else hs.get? k :=
    Slab.Sound.get?_insert sound {}
  have hp : (hs.insert {}).get? p = some h := by rw [hins, if_neg hne, hg]
  have hadd : (hs.create (some p)).2 = (update (hs.insert {}) p Hub.withChild).update hs.next
      fun c => { c with parent := some p, order := h.nextOrder } := by
    simp [create, addChild, hp, hn]
  rw [hadd, get?_update, get?_update, get?_update, if_neg (Ne.symm hne)]
  by_cases hk : k = hs.next
  · subst hk
    simp [hins]
  · by_cases hkp : k = p
    · subst hkp
      simp [hk, hp]
    · simp [hk, hkp, hins]

/-- A hub created below none, or below one that takes no more children. -/
lemma get?_create_orphan (sound : hs.Sound) {parent : Option HubId}
    (hp : ∀ p, parent = some p → ∃ h, hs.get? p = some h ∧ h.status.isSome = true) (k : HubId) :
    (hs.create parent).2.get? k = if k = hs.next then some {} else hs.get? k := by
  have hins : ∀ k, (hs.insert {}).get? k = if k = hs.next then some {} else hs.get? k :=
    Slab.Sound.get?_insert sound {}
  have hsame : (hs.create parent).2 = hs.insert {} := by
    cases parent with
    | none => rfl
    | some p =>
      obtain ⟨h, hg, hst⟩ := hp p rfl
      have hg' : (hs.insert {}).get? p = some h := by
        rw [hins, if_neg (Slab.Sound.ne_next sound hg), hg]
      simp [create, addChild, hg', hst]
  rw [hsame, hins]

/-- A hub is to be created below one that takes children, or below none that does. -/
lemma open_or_closed {parent : Option HubId}
    (hp : ∀ p, parent = some p → (hs.get? p).isSome = true) :
    (∃ p h, parent = some p ∧ hs.get? p = some h ∧ h.status = none) ∨
      ∀ p, parent = some p → ∃ h, hs.get? p = some h ∧ h.status.isSome = true := by
  refine or_iff_not_imp_left.mpr fun hopen p he => ?_
  obtain ⟨h, hg⟩ := isSome_iff_exists.mp (hp p he)
  refine ⟨h, hg, ?_⟩
  by_contra hst
  exact hopen ⟨p, h, he, hg, by simpa using hst⟩

/-- What a hub is like after one was created, below a hub that is there or below none. -/
lemma create_cases (sound : hs.Sound) {parent : Option HubId}
    (hp : ∀ p, parent = some p → (hs.get? p).isSome = true) {k : HubId} {hub : Hub κ}
    (hk : (hs.create parent).2.get? k = some hub) :
    (k = hs.next ∧ ∃ parent order, hub = { parent, order }) ∨
      (k ≠ hs.next ∧ ∃ old, hs.get? k = some old ∧ (hub = old ∨ hub = old.withChild)) := by
  rcases open_or_closed hp with ⟨p, h, rfl, hg, hn⟩ | hclosed
  · rw [get?_create_child sound hg hn] at hk
    by_cases hkn : k = hs.next
    · rw [if_pos hkn] at hk
      cases hk
      exact .inl ⟨hkn, _, _, rfl⟩
    · rw [if_neg hkn] at hk
      refine .inr ⟨hkn, ?_⟩
      split at hk
      · rename_i hkp
        cases hk
        exact ⟨h, hkp ▸ hg, .inr rfl⟩
      · exact ⟨hub, hk, .inl rfl⟩
  · rw [get?_create_orphan sound hclosed] at hk
    by_cases hkn : k = hs.next
    · rw [if_pos hkn] at hk
      cases hk
      exact .inl ⟨hkn, _, _, rfl⟩
    · rw [if_neg hkn] at hk
      exact .inr ⟨hkn, hub, hk, .inl rfl⟩

end Hubs

namespace Hub

namespace Scene

open Note

variable {κ : Type} {sc sc' : Scene κ} {slot : HubId} {h h' : Hub κ} {past os : Notes}
  {P : List Duty → Duty → Prop} {above above' ds : List Duty} {d : Duty} {n : ℕ} {p : HubId}
  {new : List HubId} {status : Int}

/-! ### What is said of duties in hand -/

/-- Something holds of each duty and of those that come before it. -/
def Stacked (P : List Duty → Duty → Prop) : List Duty → List Duty → Prop
  | _, [] => True
  | above, d :: ds => P above d ∧ Stacked P (d :: above) ds

lemma Stacked.imp {Q : List Duty → Duty → Prop}
    (hs : Stacked P above ds) (hi : ∀ new, ∀ d ∈ ds, P (new ++ above) d → Q (new ++ above') d) :
    Stacked Q above' ds := by
  induction ds generalizing above above' with
  | nil => trivial
  | cons d ds ih =>
    refine ⟨hi [] d mem_cons_self hs.1, ih hs.2 fun new e he hp => ?_⟩
    have hq := hi (new ++ [d]) e (mem_cons_of_mem _ he)
    rw [append_assoc, append_assoc] at hq
    exact hq hp

lemma Stacked.mem (hs : Stacked P above ds) (hd : d ∈ ds) : ∃ new, P new d := by
  induction ds generalizing above with
  | nil => cases hd
  | cons e ds ih =>
    rcases mem_cons.mp hd with rfl | hd
    · exact ⟨above, hs.1⟩
    · exact ih hs.2 hd

/-- The report in hand is that of a child which completed and has not reported. The subscribers
that waited at its completion are gone or come first. -/
def Told (past : Notes) (handles : List HubId) (above : List Duty) : Duty → Prop
  | .report p order status contributes => ∃ m n waiting, handles[m]? = some p ∧
      (children past m)[order]? = some n ∧ n ∉ reporters past m ∧
      completions past n = [(status, waiting)] ∧ contributes = waiting.isEmpty ∧
      ∀ key ∈ waiting, Gone past n key ∨ ∃ slot st keys,
        .deliver slot st keys ∈ above ∧ handles[n]? = some slot ∧ key ∈ keys
  | _ => True

/-- Where the reports in hand go: to which parent, as the child at which position. -/
def places (ds : List Duty) : List (HubId × ℕ) :=
  ds.filterMap fun | .report p order _ _ => some (p, order) | _ => none

lemma places_append (ds es : List Duty) : places (ds ++ es) = places ds ++ places es :=
  filterMap_append

/-- The place of a hub in its family, and whether it is open. -/
def rank (h : Hub κ) : Option Int × Option HubId × ℕ × ℕ × ℕ :=
  (h.status, h.parent, h.order, h.nextOrder, h.pending)

/-- What the books say of an open hub: how many children it has and waits for, and where it is
below its parent. -/
structure Kin (past : Notes) (handles : List HubId) (n : ℕ) (h : Hub κ) : Prop where
  order : h.nextOrder = (children past n).length
  pending : h.pending + (reporters past n).length = (children past n).length
  link : ∀ p, h.parent = some p →
    ∃ m, handles[m]? = some p ∧ (children past m)[h.order]? = some n
  orphan : h.parent = none → ∀ m, n ∉ children past m

lemma getElem?_append_some {α : Type} {l new : List α} {i : ℕ} {a : α} (h : l[i]? = some a) :
    (l ++ new)[i]? = some a := by
  rw [getElem?_append_left (List.getElem?_eq_some_iff.mp h).1, h]

/-- A hub that gets children counts and awaits them, and nothing else is said of it. -/
lemma Kin.append {handles : List HubId} (hk : Kin past handles n h) (new : List HubId)
    (hpar : h'.parent = h.parent) (hord : h'.order = h.order)
    (hnext : h'.nextOrder = h.nextOrder + (children os n).length)
    (hpend : h'.pending = h.pending + (children os n).length) (hmute : reporters os n = [])
    (hold : ∀ m, n ∉ children os m) : Kin (past ++ os) (handles ++ new) n h' where
  order := by rw [hnext, hk.order, children_append, length_append]
  pending := by
    have hsum := hk.pending
    rw [hpend, children_append, length_append, reporters_append, hmute, append_nil]
    omega
  link p hp := by
    obtain ⟨m, hm, hc⟩ := hk.link p (hpar ▸ hp)
    refine ⟨m, getElem?_append_some hm, ?_⟩
    rw [children_append, hord]
    exact getElem?_append_some hc
  orphan hp m hm := by
    rw [children_append, mem_append] at hm
    exact hm.elim (hk.orphan (hpar ▸ hp) m) (hold m)

lemma mem_children_created {k m : ℕ} {parent : Option ℕ} :
    k ∈ children [.created n parent] m ↔ k = n ∧ parent = some m := by
  rw [mem_children, mem_singleton, created.injEq]
  exact and_congr_right' eq_comm

/-- What the notes say of families: a child has one parent and reports to it at most once, after it
completed, and the children of a hub that completed have reported. -/
structure Families (past : Notes) : Prop where
  parent : ∀ n m m', n ∈ children past m → n ∈ children past m' → m = m'
  nodup : ∀ m, (children past m).Nodup
  among : ∀ m, ∀ n ∈ reporters past m, n ∈ children past m ∧ completions past n ≠ []
  once : ∀ m, (reporters past m).Nodup
  closed : ∀ m, completions past m ≠ [] → ∀ n ∈ children past m, n ∈ reporters past m

/-- The books of a scene in which children are attached only by creating them. -/
structure Ledger (past : Notes) (sc : Scene κ) : Prop extends Families past where
  kin : ∀ slot h, sc.hubs.get? slot = some h → h.status = none →
    Kin past sc.handles (sc.tenant slot) h
  told : Stacked (Told past sc.handles) [] sc.duties
  distinct : (places sc.duties).Nodup
  due : ∀ m, ∀ n ∈ children past m, completions past n ≠ [] → n ∉ reporters past m →
    ∃ p order, (p, order) ∈ places sc.duties ∧ sc.handles[m]? = some p ∧
      (children past m)[order]? = some n

/-! ### What follows from the books -/

lemma Sane.exists_open (hs : Sane past sc) (hn : n < sc.handles.length)
    (hc : completions past n = []) :
    ∃ slot h, sc.hubs.get? slot = some h ∧ h.status = none ∧ sc.tenant slot = n ∧
      sc.handles[n]? = some slot := by
  obtain ⟨slot, h, hg, rfl⟩ := hs.stored n hn hc
  refine ⟨slot, h, hg, ?_, rfl, getElem?_tenant (hs.handle slot h hg)⟩
  rcases hst : h.status with _ | status
  · rfl
  · obtain ⟨waiting, hw⟩ := (hs.tells slot h hg).done status hst
    rw [hc] at hw
    cases hw

lemma Sane.gone_of_notMem (hs : Sane past sc) {key : ℕ} (hsub : .subscribed n key ∈ past)
    (hn : sc.handles[n]? = some slot)
    (hno : ∀ h, sc.hubs.get? slot = some h → sc.tenant slot = n → key ∉ h.keys) :
    Gone past n key := by
  by_cases hstored : ∃ h, sc.hubs.get? slot = some h ∧ sc.tenant slot = n
  · obtain ⟨h, hg, rfl⟩ := hstored
    exact ((hs.tells slot h hg).kept hsub).resolve_right (hno h hg rfl)
  · refine hs.gone n key hsub fun k hub hk he => ?_
    have hk' := getElem?_tenant (hs.handle k hub hk)
    rw [he, hn] at hk'
    obtain rfl : slot = k := some.inj hk'
    exact hstored ⟨hub, hk, he⟩

lemma Sane.completions_stable (hs : Sane (past ++ os) sc) {c : Int × List ℕ}
    (hc : completions past n = [c]) : completions (past ++ os) n = [c] := by
  rw [completions_append, hs.completions_eq_nil (by simp [hc]), hc, append_nil]

/-- Who was to be called is called later on, or has gone. -/
def Delivers (past os : Notes) (sc : Scene κ) (above above' : List Duty) : Prop :=
  ∀ slot st keys, .deliver slot st keys ∈ above → ∀ n, ∀ key ∈ keys,
    sc.handles[n]? = some slot → .subscribed n key ∈ past →
      Gone (past ++ os) n key ∨ ∃ st' keys', .deliver slot st' keys' ∈ above' ∧ key ∈ keys'

/-- What is said of a report in hand stays so, unless it is that child which reports. -/
lemma told_mono (hs : Sane past sc) (hs' : Sane (past ++ os) sc')
    (handles : sc'.handles = sc.handles ++ new)
    (hreport : ∀ p order status contributes, d = .report p order status contributes →
      ∀ m n, sc.handles[m]? = some p → (children past m)[order]? = some n →
        n ∉ reporters past m → n ∉ reporters os m)
    (hdeliver : Delivers past os sc above above')
    (ht : Told past sc.handles above d) : Told (past ++ os) sc'.handles above' d := by
  cases d with
  | report p order status contributes =>
    obtain ⟨m, n, waiting, hp, hn, hnot, hc, hcon, hkeys⟩ := ht
    have hget : ∀ {i : ℕ} {x : HubId}, sc.handles[i]? = some x → sc'.handles[i]? = some x :=
      fun hx => handles ▸ getElem?_append_some hx
    refine ⟨m, n, waiting, hget hp, ?_, ?_, hs'.completions_stable hc, hcon, fun key hk => ?_⟩
    · rw [children_append, getElem?_append_some hn]
    · rw [reporters_append, mem_append]
      exact not_or.mpr ⟨hnot, hreport p order status contributes rfl m n hp hn hnot⟩
    · rcases hkeys key hk with hgone | ⟨slot, st, keys, hd, hslot, hkey⟩
      · exact .inl (hgone.append os)
      · have hsub := hs.waited n status waiting (mem_completions.mp (by simp [hc])) key hk
        rcases hdeliver slot st keys hd n key hkey hslot hsub with hgone | ⟨st', keys', hd', hk'⟩
        · exact .inl hgone
        · exact .inr ⟨slot, st', keys', hd', hget hslot, hk'⟩
  | _ => trivial

lemma stacked_told (hs : Sane past sc) (hs' : Sane (past ++ os) sc')
    (handles : sc'.handles = sc.handles ++ new) (hreport : ∀ m, reporters os m = [])
    (hdeliver : Delivers past os sc above above')
    (ht : Stacked (Told past sc.handles) above ds) :
    Stacked (Told (past ++ os) sc'.handles) above' ds := by
  refine ht.imp fun new' d _ => told_mono hs hs' handles ?_ ?_
  · intro p order status contributes _ m n _ _ _
    rw [hreport m]
    exact not_mem_nil
  · intro slot st keys hd n key hk hn hsub
    rcases mem_append.mp hd with hd | hd
    · exact .inr ⟨st, keys, mem_append_left _ hd, hk⟩
    · refine (hdeliver slot st keys hd n key hk hn hsub).imp_right ?_
      rintro ⟨st', keys', hd', hk'⟩
      exact ⟨st', keys', mem_append_right _ hd', hk'⟩

/-! ### The books are kept -/

/-- Nothing is noted of families and completions. -/
def Aside (os : Notes) : Prop :=
  ∀ m, children os m = [] ∧ reporters os m = [] ∧ completions os m = []

lemma Families.frame (hf : Families past) (aside : Aside os) : Families (past ++ os) := by
  constructor <;> simp only [children_append, reporters_append, completions_append, (aside _).1,
    (aside _).2.1, (aside _).2.2, append_nil]
  exacts [hf.parent, hf.nodup, hf.among, hf.once, hf.closed]

/-- Nothing changes in the families, and no report is new or done with. -/
lemma Ledger.frame (hl : Ledger past sc) (hubs : ∀ k hub, sc'.hubs.get? k = some hub →
      ∃ old, sc.hubs.get? k = some old ∧ rank hub = rank old)
    (handles : sc'.handles = sc.handles) (aside : Aside os)
    (told : Stacked (Told (past ++ os) sc'.handles) [] sc'.duties)
    (reports : places sc'.duties = places sc.duties) : Ledger (past ++ os) sc' := by
  refine ⟨hl.toFamilies.frame aside, fun k hub hk hn => ?_, told, reports ▸ hl.distinct, ?_⟩
  · obtain ⟨old, hold, hrank⟩ := hubs k hub hk
    simp only [rank, Prod.mk.injEq] at hrank
    obtain ⟨hst, hpar, hord, hnext, hpend⟩ := hrank
    rw [tenant_eq handles, handles, ← append_nil sc.handles]
    refine (hl.kin k old hold (hst ▸ hn)).append [] hpar hord ?_ ?_ (aside _).2.1 fun m => ?_
    · rwa [(aside _).1]
    · rwa [(aside _).1]
    · rw [(aside m).1]
      exact not_mem_nil
  · simpa only [children_append, reporters_append, completions_append, (aside _).1, (aside _).2.1,
      (aside _).2.2, append_nil, reports, handles] using hl.due

lemma Families.created (hf : Families past) {parent : Option ℕ} (hnew : ∀ m, n ∉ children past m)
    (hopen : ∀ m, parent = some m → completions past m = []) :
    Families (past ++ [.created n parent]) := by
  have hchild : ∀ {k m}, k ∈ children (past ++ [.created n parent]) m ↔
      k ∈ children past m ∨ k = n ∧ parent = some m := by
    simp [mem_children_created]
  have hreporters : ∀ m, reporters (past ++ [.created n parent]) m = reporters past m := by
    simp [reporters, select]
  have hcompletions : ∀ m, completions (past ++ [.created n parent]) m = completions past m := by
    simp [completions, select]
  refine ⟨fun k m m' hm hm' => ?_, fun m => ?_, fun m k hk => ?_, fun m => ?_, fun m hc k hk => ?_⟩
  · rcases hchild.mp hm with hm | ⟨rfl, hp⟩ <;> rcases hchild.mp hm' with hm' | ⟨he, hp'⟩
    · exact hf.parent k m m' hm hm'
    · exact absurd (he ▸ hm) (hnew m)
    · exact absurd hm' (hnew m')
    · exact some.inj (hp.symm.trans hp')
  · rw [children_append]
    refine (hf.nodup m).append ?_ fun k hk hk' => ?_
    · cases parent with
      | none => exact nodup_nil
      | some p =>
        rw [children_created]
        split <;> simp
    · exact hnew m ((mem_children_created.mp hk').1 ▸ hk)
  · rw [hreporters] at hk
    rw [hcompletions]
    exact (hf.among m k hk).imp_left fun hm => hchild.mpr (.inl hm)
  · rw [hreporters]
    exact hf.once m
  · rw [hcompletions] at hc
    rw [hreporters]
    rcases hchild.mp hk with hk | ⟨-, hp⟩
    · exact hf.closed m hc k hk
    · exact absurd (hopen m hp) hc

lemma Families.reported (hf : Families past) {m : ℕ} (hn : n ∈ children past m)
    (hnot : n ∉ reporters past m) (hc : completions past n ≠ []) :
    Families (past ++ [.reported n m]) := by
  have hreport : ∀ {k m'}, k ∈ reporters (past ++ [.reported n m]) m' ↔
      k ∈ reporters past m' ∨ k = n ∧ m' = m := by simp [mem_reporters]
  have hchildren : ∀ m', children (past ++ [.reported n m]) m' = children past m' := by
    simp [children, select]
  have hcompletions : ∀ m', completions (past ++ [.reported n m]) m' = completions past m' := by
    simp [completions, select]
  refine ⟨?_, ?_, fun m' k hk => ?_, fun m' => ?_, fun m' hc' k hk => hreport.mpr (.inl ?_)⟩
  · simpa only [hchildren] using hf.parent
  · simpa only [hchildren] using hf.nodup
  · rw [hchildren, hcompletions]
    rcases hreport.mp hk with hk | ⟨rfl, rfl⟩
    · exact hf.among m' k hk
    · exact ⟨hn, hc⟩
  · rw [reporters_append, reporters_reported]
    split
    · rename_i he
      exact (hf.once m').append (nodup_singleton n) (by simpa using he ▸ hnot)
    · simpa using hf.once m'
  · rw [hcompletions] at hc'
    rw [hchildren] at hk
    exact hf.closed m' hc' k hk

lemma Families.completed (hf : Families past) {m : ℕ} {waiting : List ℕ}
    (hall : ∀ n ∈ children past m, n ∈ reporters past m) :
    Families (past ++ [.completed m status waiting]) := by
  have hchildren : ∀ k, children [.completed m status waiting] k = [] := fun k => by
    simp [children, select]
  have hreporters : ∀ k, reporters [.completed m status waiting] k = [] := fun k => by
    simp [reporters, select]
  constructor <;> simp only [children_append, reporters_append, hchildren, hreporters, append_nil]
  · exact hf.parent
  · exact hf.nodup
  · intro k n hn
    refine (hf.among k n hn).imp_right fun hc hnil => hc ?_
    rw [completions_append, append_eq_nil_iff] at hnil
    exact hnil.1
  · exact hf.once
  · intro k hc n hn
    by_cases hk : m = k
    · exact hk ▸ hall n (hk ▸ hn)
    · rw [completions_append, completions_completed, if_neg hk, append_nil] at hc
      exact hf.closed k hc n hn

lemma Sane.fresh (hs : Sane past sc) :
    (∀ m, sc.handles.length ∉ children past m) ∧ children past sc.handles.length = [] ∧
      (∀ m, sc.handles.length ∉ reporters past m) ∧ reporters past sc.handles.length = [] ∧
      completions past sc.handles.length = [] := by
  have hfresh : ∀ o ∈ past, sc.handles.length ∉ o.hubs := fun o ho hm =>
    (hs.noted o ho _ hm).false
  refine ⟨fun m hm => ?_, ?_, fun m hm => ?_, ?_, ?_⟩
  · exact hfresh _ (mem_children.mp hm) (by simp [Note.hubs])
  · exact select_eq_nil (by intro o a hk; split at hk <;> cases hk; simp [Note.hubs]) hfresh
  · exact hfresh _ (mem_reporters.mp hm) (by simp [Note.hubs])
  · exact select_eq_nil (by intro o a hk; split at hk <;> cases hk; simp [Note.hubs]) hfresh
  · exact select_eq_nil (by intro o a hk; split at hk <;> cases hk; simp [Note.hubs]) hfresh

/-- A hub that was just created has no children, and is the last child of its parent. -/
lemma Sane.kin_new (hs : Sane past sc) {parent : Option ℕ} {hub : Hub κ} (hnext : hub.nextOrder = 0)
    (hpend : hub.pending = 0)
    (hlink : hub.parent = none ∧ parent = none ∨ ∃ p m, hub.parent = some p ∧
      parent = some m ∧ sc.handles[m]? = some p ∧ hub.order = (children past m).length) :
    Kin (past ++ [.created sc.handles.length parent]) (sc.handles ++ [sc.hubs.next])
      sc.handles.length hub := by
  obtain ⟨hnochild, hnone, -, hnoreports, -⟩ := hs.fresh
  have hself : children [.created sc.handles.length parent] sc.handles.length = [] := by
    refine eq_nil_iff_forall_not_mem.mpr fun k hk => ?_
    have hp := (mem_children_created.mp hk).2
    rcases hlink with ⟨-, hno⟩ | ⟨p, m, -, hm, hget, -⟩
    · cases hno.symm.trans hp
    · cases hm.symm.trans hp
      exact (List.getElem?_eq_some_iff.mp hget).1.false
  refine ⟨?_, ?_, fun p hp => ?_, fun hp m hm => ?_⟩
  · rw [children_append, hnone, hself, hnext]
    rfl
  · rw [children_append, reporters_append, hnone, hself, hnoreports, hpend]
    rfl
  · rcases hlink with ⟨hno, -⟩ | ⟨p', m, hp', rfl, hget, hord⟩
    · cases hno.symm.trans hp
    · cases hp'.symm.trans hp
      refine ⟨m, getElem?_append_some hget, ?_⟩
      rw [children_append, children_created, if_pos rfl, hord]
      simp
  · rw [children_append, mem_append, mem_children_created] at hm
    rcases hlink with ⟨-, rfl⟩ | ⟨p', m, hp', -⟩
    · exact hm.elim (hnochild m) fun h => by cases h.2
    · cases hp'.symm.trans hp

/-- The children of a hub that no longer waits have all reported. -/
lemma Ledger.all_reported (hl : Ledger past sc) (hg : sc.hubs.get? slot = some h)
    (hn : h.status = none) (hp : h.pending = 0) :
    ∀ n ∈ children past (sc.tenant slot), n ∈ reporters past (sc.tenant slot) := by
  have hsum := (hl.kin slot h hg hn).pending
  have hsub : reporters past (sc.tenant slot) ⊆ children past (sc.tenant slot) := fun n hm =>
    (hl.among _ n hm).1
  have hperm := (subperm_of_subset (hl.once _) hsub).perm_of_length_le (by omega)
  exact fun n hm => hperm.mem_iff.mpr hm

/-- One hub changes, and what is seen of it stays. -/
lemma exists_alike_update {β : Type} {g : Hub κ → β} {hs : Hubs κ} {f : Hub κ → Hub κ}
    (hf : ∀ h, hs.get? slot = some h → g (f h) = g h) (k : HubId) (hub : Hub κ)
    (hk : (hs.update slot f).get? k = some hub) :
    ∃ old, hs.get? k = some old ∧ g hub = g old := by
  rw [get?_update] at hk
  split at hk
  · rename_i he
    obtain ⟨old, hold, rfl⟩ := map_eq_some_iff.mp hk
    exact ⟨old, he ▸ hold, hf old hold⟩
  · exact ⟨hub, hk, rfl⟩

lemma duties_heed (h : Hub κ) (d : Duty) (slot : HubId) (status : Int) :
    (h.heed d).duties slot status = h.duties slot status := by
  cases d <;> rfl

/-- To flush a hub is to call its subscribers; no parent hears of it. -/
lemma flush_cases (hs : Hubs κ) (slot : HubId) :
    hs.flush slot = [] ∨ ∃ status keys,
      hs.flush slot = [.deliver slot status keys, .settle slot] := by
  rcases hg : hs.get? slot with _ | h
  · exact .inl (by simp [flush, hg])
  · rcases hst : h.status with _ | status
    · exact .inl (by simp [flush, hg, hst])
    · exact .inr ⟨status, h.keys, by simp [flush, hg, hst, keys]⟩

section

variable (hl : Ledger past sc) (hs : Sane past sc)
include hl hs

lemma Ledger.exists_parent {m : ℕ}
    (hm : n ∈ children past m) (hn : n ∉ reporters past m) (hp : sc.handles[m]? = some p) :
    ∃ h, sc.hubs.get? p = some h ∧ h.status = none ∧ sc.tenant p = m := by
  have hopen : completions past m = [] := by
    by_contra hc
    exact hn (hl.closed m hc n hm)
  have hlt : m < sc.handles.length := (List.getElem?_eq_some_iff.mp hp).1
  obtain ⟨slot, h, hg, hst, htenant, hslot⟩ := hs.exists_open hlt hopen
  obtain rfl : slot = p := some.inj (hslot.symm.trans hp)
  exact ⟨h, hg, hst, htenant⟩

/-- A hub is created, and its parent, if it has one, waits for one more. -/
lemma Ledger.created {parent : Option ℕ}
    (hs' : Sane (past ++ [.created sc.handles.length parent]) sc')
    (handles : sc'.handles = sc.handles ++ [sc.hubs.next]) (duties : sc'.duties = sc.duties)
    (hopen : ∀ m, parent = some m → completions past m = [])
    (hkin : ∀ k hub, sc'.hubs.get? k = some hub → hub.status = none →
      Kin (past ++ [.created sc.handles.length parent]) (sc.handles ++ [sc.hubs.next])
        (if k = sc.hubs.next then sc.handles.length else sc.tenant k) hub) :
    Ledger (past ++ [.created sc.handles.length parent]) sc' := by
  refine ⟨hl.toFamilies.created hs.fresh.1 hopen, fun k hub hk hst => ?_, ?_,
    duties ▸ hl.distinct, ?_⟩
  · have hk' := hkin k hub hk hst
    rw [handles]
    split at hk'
    · subst k
      rwa [tenant_new handles]
    · rename_i hne
      rwa [tenant_old handles hne]
  · rw [duties]
    exact stacked_told hs hs' handles (fun _ => rfl) (by simp [Delivers]) hl.told
  · intro m n hn hc hnot
    have hc' : completions past n ≠ [] := by simpa [completions, select] using hc
    rw [children_append, mem_append] at hn
    rcases hn with hn | hn
    · obtain ⟨p, order, hm, hp, hplc⟩ := hl.due m n hn hc' fun hr => hnot (by simp [hr])
      refine ⟨p, order, duties ▸ hm, handles ▸ getElem?_append_some hp, ?_⟩
      rw [children_append, getElem?_append_some hplc]
    · obtain ⟨rfl, -⟩ := mem_children_created.mp hn
      exact absurd hs.fresh.2.2.2.2 hc'

section

variable {order : ℕ} {contributes : Bool}
  (hd : sc.duties = .report p order status contributes :: ds) (hg : sc.hubs.get? p = some h)
  (hn : (children past (sc.tenant p))[order]? = some n)
include hg hn

/-- The parent waits for one child less, and the other hubs for as many as before. -/
lemma Ledger.kin_reported (hnot : n ∉ reporters past (sc.tenant p)) {k : HubId} {hub : Hub κ}
    (hst : hub.status = none)
    (hk : (sc.hubs.update p fun _ => h.heard order status contributes).get? k = some hub) :
    Kin (past ++ [.reported n (sc.tenant p)]) sc.handles (sc.tenant k) hub := by
  have hmute : ∀ m, children [.reported n (sc.tenant p)] m = [] := fun m => by
    simp [children, select]
  by_cases hkp : k = p
  · subst hkp
    rw [get?_update_self hg] at hk
    cases hk
    have hkin := hl.kin k h hg hst
    -- one that reports now has not been counted before
    have hlt : (n :: reporters past (sc.tenant k)).length ≤
        (children past (sc.tenant k)).length := by
      refine (subperm_of_subset (nodup_cons.mpr ⟨hnot, hl.once _⟩) fun x hx => ?_).length_le
      rcases mem_cons.mp hx with rfl | hx
      · exact mem_of_getElem? hn
      · exact (hl.among _ x hx).1
    have hsum := hkin.pending
    have hpend : (h.heard order status contributes).pending = h.pending - 1 := rfl
    constructor <;> simp only [children_append, hmute, append_nil]
    · exact hkin.order
    · rw [hpend, reporters_append, reporters_reported, if_pos rfl, length_append, length_singleton]
      rw [length_cons] at hlt
      omega
    · exact hkin.link
    · exact hkin.orphan
  · rw [get?_update_of_ne _ _ hkp] at hk
    have hne : sc.tenant p ≠ sc.tenant k := fun he =>
      hkp (tenant_inj (hs.handle p h hg) (hs.handle k hub hk) he.symm)
    rw [← append_nil sc.handles]
    refine (hl.kin k hub hk hst).append [] rfl rfl ?_ ?_ ?_ fun m => ?_
    · rw [hmute, length_nil, add_zero]
    · rw [hmute, length_nil, add_zero]
    · rw [reporters_reported, if_neg hne]
    · rw [hmute]
      exact not_mem_nil

include hd

/-- The other reports in hand are of other children. -/
lemma Ledger.told_reported (handles : sc'.handles = sc.handles)
    (hs' : Sane (past ++ [.reported n (sc.tenant p)]) sc') :
    Stacked (Told (past ++ [.reported n (sc.tenant p)]) sc'.handles) [] ds := by
  have htold := hl.told
  have hdistinct := hl.distinct
  rw [hd] at htold hdistinct
  refine htold.2.imp fun new d hmem => told_mono hs hs' (handles.trans (append_nil _).symm) ?_ ?_
  · intro q order' status' contributes' he m' x hq hx hxnot hxn
    subst he
    have hin : (q, order') ∈ places ds := mem_filterMap.mpr ⟨_, hmem, rfl⟩
    rw [reporters_reported] at hxn
    split at hxn
    · rename_i he
      subst he
      have hsame : q = p := some.inj (hq.symm.trans (getElem?_tenant (hs.handle p h hg)))
      rw [mem_singleton.mp hxn, ← hn] at hx
      have horder : order' = order :=
        (getElem?_inj (List.getElem?_eq_some_iff.mp (hx.trans hn)).1 (hl.nodup _)).mp hx
      exact (nodup_cons.mp hdistinct).1 (hsame ▸ horder ▸ hin)
    · cases hxn
  · intro slot st keys hd' n' key hk hslot hsub
    refine .inr ⟨st, keys, ?_, hk⟩
    simpa using hd'

lemma Ledger.reported (hnot : n ∉ reporters past (sc.tenant p)) (hc : completions past n ≠ [])
    (hs' : Sane (past ++ [.reported n (sc.tenant p)]) sc')
    (hubs : sc'.hubs = sc.hubs.update p fun _ => h.heard order status contributes)
    (handles : sc'.handles = sc.handles) (duties : sc'.duties = ds) :
    Ledger (past ++ [.reported n (sc.tenant p)]) sc' := by
  have hplaces : places sc.duties = (p, order) :: places ds := by rw [hd]; rfl
  refine ⟨hl.toFamilies.reported (mem_of_getElem? hn) hnot hc, fun k hub hk hst => ?_, ?_, ?_, ?_⟩
  · rw [hubs] at hk
    rw [handles, tenant_eq handles]
    exact hl.kin_reported hs hg hn hnot hst hk
  · rw [duties]
    exact hl.told_reported hs hd hg hn handles hs'
  · have hdistinct := hl.distinct
    rw [hplaces] at hdistinct
    rw [duties]
    exact (nodup_cons.mp hdistinct).2
  · intro m x hx hcx hnotx
    have hx' : x ∈ children past m := by simpa [mem_children] using hx
    have hcx' : completions past x ≠ [] := by simpa [completions, select] using hcx
    rw [reporters_append, mem_append, not_or] at hnotx
    obtain ⟨q, order', hin, hq, hplc⟩ := hl.due m x hx' hcx' hnotx.1
    refine ⟨q, order', ?_, handles ▸ hq, by rw [children_append, getElem?_append_some hplc]⟩
    rw [hplaces] at hin
    rw [duties]
    refine (mem_cons.mp hin).resolve_left fun he => hnotx.2 ?_
    -- it is the child that reports
    obtain ⟨rfl, rfl⟩ := Prod.mk.inj he
    obtain ⟨-, -, -, rfl⟩ := hl.exists_parent hs hx' hnotx.1 hq
    obtain rfl : n = x := some.inj (hn.symm.trans hplc)
    rw [reporters_reported, if_pos rfl]
    exact mem_singleton_self _

end

section

variable (hg : sc.hubs.get? slot = some h) (hn : h.status = none)
include hg hn

/-- The parent that a hub reports to when it completes has not heard of it. -/
lemma Ledger.unheard (hpar : h.parent = some p) : ∃ m, sc.handles[m]? = some p ∧
    (children past m)[h.order]? = some (sc.tenant slot) ∧ sc.tenant slot ∉ reporters past m := by
  obtain ⟨m, hm, hplc⟩ := (hl.kin slot h hg hn).link p hpar
  refine ⟨m, hm, hplc, fun hin => (hl.among m _ hin).2 ?_⟩
  exact (hs.tells slot h hg).running hn

/-- A report from the same place would be that of a child which completed before. -/
lemma Ledger.place_notMem (hpar : h.parent = some p) : (p, h.order) ∉ places sc.duties := by
  intro hin
  obtain ⟨m, hm, hplc, hnot⟩ := hl.unheard hs hg hn hpar
  obtain ⟨d, hd, hpl⟩ := mem_filterMap.mp hin
  obtain ⟨above, htold⟩ := hl.told.mem hd
  cases d with
  | report =>
    cases hpl
    obtain ⟨m', n', w, hm', hn', hnot', hc, -⟩ := htold
    obtain ⟨-, -, -, ht⟩ := hl.exists_parent hs (mem_of_getElem? hplc) hnot hm
    obtain ⟨-, -, -, ht'⟩ := hl.exists_parent hs (mem_of_getElem? hn') hnot' hm'
    rw [← ht', ht, hplc] at hn'
    obtain rfl := some.inj hn'
    rw [(hs.tells slot h hg).running hn] at hc
    cases hc
  | _ => cases hpl

variable (hs' : Sane (past ++ [.completed (sc.tenant slot) status h.keys]) sc')
  (handles : sc'.handles = sc.handles)
include hs' handles

/-- The report of the hub comes after the calls of those who wait for it. -/
lemma Ledger.told_fired :
    Stacked (Told (past ++ [.completed (sc.tenant slot) status h.keys]) sc'.handles) []
      (h.duties slot status ++ sc.duties) := by
  have hrest : ∀ above, Stacked (Told (past ++ [.completed (sc.tenant slot) status h.keys])
      sc'.handles) above sc.duties := fun above =>
    stacked_told hs hs' (handles.trans (append_nil _).symm) (fun _ => rfl) (by simp [Delivers])
      hl.told
  rcases hpar : h.parent with _ | p
  · simp only [Hub.duties, hpar]
    exact ⟨trivial, trivial, hrest _⟩
  · obtain ⟨m, hm, hplc, hnot⟩ := hl.unheard hs hg hn hpar
    simp only [Hub.duties, hpar]
    refine ⟨trivial, ⟨m, sc.tenant slot, h.keys, handles ▸ hm, ?_, ?_, ?_, ?_, fun key hk => ?_⟩,
      trivial, hrest _⟩
    · rw [children_append, getElem?_append_some hplc]
    · simpa [mem_reporters] using fun hr => hnot (mem_reporters.mpr hr)
    · rw [completions_append, (hs.tells slot h hg).running hn, completions_completed, if_pos rfl]
      rfl
    · simp [Hub.keys]
    · exact .inr ⟨slot, status, h.keys, mem_singleton_self _,
        handles ▸ getElem?_tenant (hs.handle slot h hg), hk⟩

/-- A hub that waits for no child gets its status. Its parent is to hear of it once the subscribers
that wait now are gone. -/
lemma Ledger.fired (hp : h.pending = 0)
    (hg' : sc'.hubs.get? slot = some h') (hst : h'.status = some status)
    (rest : ∀ k, k ≠ slot → sc'.hubs.get? k = sc.hubs.get? k)
    (duties : sc'.duties = h.duties slot status ++ sc.duties) :
    Ledger (past ++ [.completed (sc.tenant slot) status h.keys]) sc' := by
  have hkin := hl.kin slot h hg hn
  refine ⟨hl.toFamilies.completed (hl.all_reported hg hn hp), fun k hub hk hnone => ?_, ?_, ?_, ?_⟩
  · have hne : k ≠ slot := by
      rintro rfl
      cases hg'.symm.trans hk
      cases hst.symm.trans hnone
    rw [tenant_eq handles, handles, ← append_nil sc.handles]
    exact (hl.kin k hub ((rest k hne).symm.trans hk) hnone).append [] rfl rfl rfl rfl rfl
      fun _ => not_mem_nil
  · rw [duties]
    exact hl.told_fired hs hg hn hs' handles
  · rw [duties, places_append]
    rcases hpar : h.parent with _ | p
    · simpa [Hub.duties, hpar, places] using hl.distinct
    · have hplaces : places (h.duties slot status) = [(p, h.order)] := by
        simp [Hub.duties, hpar, places]
      rw [hplaces, singleton_append, nodup_cons]
      exact ⟨hl.place_notMem hs hg hn hpar, hl.distinct⟩
  · intro m n hm hc hnot
    have hm' : n ∈ children past m := by simpa [mem_children] using hm
    have hnot' : n ∉ reporters past m := fun hr => hnot (by simp [hr])
    rw [duties, places_append, handles]
    by_cases hnc : n = sc.tenant slot
    · -- it is the one that completes, and its parent is to hear of it
      subst hnc
      rcases hpar : h.parent with _ | p
      · exact absurd hm' (hkin.orphan hpar m)
      · obtain ⟨m', hmp, hplc⟩ := hkin.link p hpar
        obtain rfl := hl.parent _ m m' hm' (mem_of_getElem? hplc)
        refine ⟨p, h.order, by simp [Hub.duties, hpar, places], hmp, ?_⟩
        rw [children_append, getElem?_append_some hplc]
    · rw [completions_append, completions_completed, if_neg (Ne.symm hnc), append_nil] at hc
      obtain ⟨p, order, hin, hp', hplc⟩ := hl.due m n hm' hc hnot'
      refine ⟨p, order, mem_append_right _ hin, hp', ?_⟩
      rw [children_append, getElem?_append_some hplc]

end

section

variable (hs' : Sane (past ++ os) sc') (handles : sc'.handles = sc.handles) (aside : Aside os)
include hs' handles aside

lemma told_same (above : List Duty) : Stacked (Told (past ++ os) sc'.handles) above sc.duties :=
  stacked_told hs hs' (handles.trans (append_nil _).symm) (fun m => (aside m).2.1)
    (by simp [Delivers]) hl.told

/-- The duty that comes first is done with; a call that is dropped leaves no one out. -/
lemma told_tail (hd : sc.duties = d :: ds)
    (hi : ∀ slot status keys, d = .deliver slot status keys → keys = [] ∨
      sc.hubs.get? slot = none) : Stacked (Told (past ++ os) sc'.handles) [] ds := by
  have htold := hl.told
  rw [hd] at htold
  refine stacked_told hs hs' (handles.trans (append_nil _).symm) (fun m => (aside m).2.1) ?_ htold.2
  intro slot st keys hm n key hk hn hsub
  rcases hi slot st keys (mem_singleton.mp hm).symm with rfl | hnone
  · cases hk
  · refine .inl (Gone.append (hs.gone_of_notMem hsub hn fun h hg => ?_) os)
    rw [hnone] at hg
    cases hg

/-- The first of the subscribers to be called is called, or is not there. -/
lemma told_shift {key : ℕ}
    {keys : List ℕ} (hd : sc.duties = .deliver slot status (key :: keys) :: ds)
    (hgone : ∀ n, sc.handles[n]? = some slot → .subscribed n key ∈ past → Gone (past ++ os) n key) :
    Stacked (Told (past ++ os) sc'.handles) [] (.deliver slot status keys :: ds) := by
  have htold := hl.told
  rw [hd] at htold
  refine ⟨trivial, ?_⟩
  refine stacked_told hs hs' (handles.trans (append_nil _).symm) (fun m => (aside m).2.1) ?_ htold.2
  intro slot' st keys' hm n key' hk hn hsub
  cases mem_singleton.mp hm
  rcases mem_cons.mp hk with rfl | hk
  · exact .inl (hgone n hn hsub)
  · exact .inr ⟨status, keys, mem_singleton_self _, hk⟩

end

/-- A report in hand finds its parent open, and its child at its place. -/
lemma Ledger.report_top {order : ℕ} {contributes : Bool}
    (hd : sc.duties = .report p order status contributes :: ds) :
    ∃ h n waiting, sc.hubs.get? p = some h ∧ h.status = none ∧
      (children past (sc.tenant p))[order]? = some n ∧ n ∉ reporters past (sc.tenant p) ∧
      completions past n = [(status, waiting)] ∧ contributes = waiting.isEmpty ∧
      ∀ key ∈ waiting, Gone past n key := by
  have htold := hl.told
  rw [hd] at htold
  obtain ⟨m, n, waiting, hm, hn, hnot, hc, hcon, hkeys⟩ := htold.1
  obtain ⟨h, hg, hst, rfl⟩ := hl.exists_parent hs (mem_of_getElem? hn) hnot hm
  refine ⟨h, n, waiting, hg, hst, hn, hnot, hc, hcon, fun key hk => ?_⟩
  rcases hkeys key hk with hgone | ⟨slot, st, keys, hin, -⟩
  · exact hgone
  · cases hin

lemma Ledger.heeded (ha : sc.Asked slot h d ds) :
    Ledger (past ++ d.heeded past (sc.tenant slot))
      (sc.withUpdate slot (fun _ => h.heed d) ds) := by
  obtain ⟨hd, ht, hg, -⟩ := ha
  have hs' := hs.heeded hg d ds
  cases d with
  | notify | sealOff =>
    refine hl.frame (exists_alike_update fun h' hg' => ?_) rfl (fun m => ⟨rfl, rfl, rfl⟩)
      (told_tail hl hs hs' rfl (fun m => ⟨rfl, rfl, rfl⟩) hd fun _ _ _ he => by cases he)
      (by rw [hd]; rfl)
    cases hg.symm.trans hg'
    rfl
  | report p order status contributes =>
    cases ht
    obtain ⟨h1, n, waiting, -, -, hn, hnot, hc, -⟩ := hl.report_top hs hd
    have hnotes : Duty.heeded past (sc.tenant slot) (.report slot order status contributes) =
        [.reported n (sc.tenant slot)] := by
      simp [Duty.heeded, hn]
    rw [hnotes] at hs' ⊢
    exact hl.reported hs hd hg hn hnot (by simp [hc]) hs' rfl rfl rfl
  | deliver | settle => cases ht

lemma Ledger.completed (ha : sc.Asked slot h d ds) (hdue : (h.heed d).IsDue) :
    Ledger (past ++ (d.heeded past (sc.tenant slot) ++
        [.completed (sc.tenant slot) (h.verdict d) h.keys]))
      (sc.withUpdate slot (fun _ => h.fulfil d) (h.duties slot (h.verdict d) ++ ds)) := by
  have hg := ha.hub
  have hs' := hs.completed hg ha.running d (h.duties slot (h.verdict d) ++ ds)
  have hl1 := hl.heeded hs ha
  have hs1 := hs.heeded hg d ds
  obtain ⟨hstatus, hrest⟩ := Prod.mk.inj (aspect_heed h d)
  have hkeys : (h.heed d).keys = h.keys := (Prod.mk.inj hrest).1
  rw [← append_assoc, ← hkeys] at hs' ⊢
  refine hl1.fired hs1 (get?_update_self hg _) (hstatus.trans ha.running) hs' rfl hdue.1
    (get?_update_self hg _) (h.fulfil_eq d).1 (fun k hk => ?_) ?_
  · rw [get?_update_of_ne _ _ hk, get?_update_of_ne _ _ hk]
  · rw [duties_heed]

lemma Ledger.create (parent : Option HubId)
    (hp : ∀ p, parent = some p → (sc.hubs.get? p).isSome = true)
    (hs' : Sane (past ++ [.created sc.handles.length (parent.bind sc.openHub?)])
      (sc.withHub parent)) :
    Ledger (past ++ [.created sc.handles.length (parent.bind sc.openHub?)])
      (sc.withHub parent) := by
  have hold : ∀ {k parent}, k ∈ sc.handles →
      ∀ m, sc.tenant k ∉ children [.created sc.handles.length parent] m := fun hk m hm =>
    (tenant_lt hk).ne (mem_children_created.mp hm).1
  rcases open_or_closed hp with ⟨p, h, rfl, hg, hn⟩ | hclosed
  · have hmem := hs.handle p h hg
    have hparent : (some p).bind sc.openHub? = some (sc.tenant p) := openHub?_eq_some hg hn
    rw [hparent] at hs' ⊢
    refine hl.created hs hs' rfl rfl ?_ fun k hub hk hst => ?_
    · rintro m ⟨⟩
      exact (hs.tells p h hg).running hn
    rw [get?_create_child hs.sound hg hn] at hk
    by_cases hkn : k = sc.hubs.next
    · subst k
      rw [if_pos rfl] at hk
      cases hk
      rw [if_pos rfl]
      exact hs.kin_new rfl rfl
        (.inr ⟨p, _, rfl, rfl, getElem?_tenant hmem, (hl.kin p h hg hn).order⟩)
    rw [if_neg hkn] at hk ⊢
    split at hk
    · subst k
      cases hk
      refine (hl.kin p h hg hn).append [_] rfl rfl ?_ ?_ rfl (hold hmem)
      · rw [children_created, if_pos rfl]
        rfl
      · rw [children_created, if_pos rfl]
        rfl
    · rename_i hkp
      have hk' := hs.handle k hub hk
      have hne : sc.tenant p ≠ sc.tenant k := fun he => hkp (tenant_inj hmem hk' he.symm)
      refine (hl.kin k hub hk hst).append [_] rfl rfl ?_ ?_ rfl (hold hk')
      · rw [children_created, if_neg hne]
        rfl
      · rw [children_created, if_neg hne]
        rfl
  · have hparent : parent.bind sc.openHub? = none := by
      rcases hpar : parent with _ | p
      · rfl
      · refine openHub?_eq_none fun h hg => ?_
        obtain ⟨h', hg', hst⟩ := hclosed p hpar
        exact some.inj (hg.symm.trans hg') ▸ hst
    rw [hparent] at hs' ⊢
    refine hl.created hs hs' rfl rfl nofun fun k hub hk hst => ?_
    rw [get?_create_orphan hs.sound hclosed] at hk
    by_cases hkn : k = sc.hubs.next
    · subst k
      rw [if_pos rfl] at hk
      cases hk
      rw [if_pos rfl]
      exact hs.kin_new rfl rfl (.inl ⟨rfl, rfl⟩)
    · rw [if_neg hkn] at hk ⊢
      exact (hl.kin k hub hk hst).append [_] rfl rfl rfl rfl rfl (hold (hs.handle k hub hk))

lemma Ledger.change (hc : Change false past sc os sc') : Ledger (past ++ os) sc' := by
  have hs' := hs.change hc
  have hnil : Aside [] := fun m => ⟨rfl, rfl, rfl⟩
  have hkeep : ∀ k hub, sc.hubs.get? k = some hub →
      ∃ old, sc.hubs.get? k = some old ∧ rank hub = rank old := fun k hub hk => ⟨hub, hk, rfl⟩
  cases hc with
  | created parent hp => exact hl.create hs parent (hp.resolve_left Bool.false_ne_true) hs'
  | attached hf parent child => cases hf
  | subscribed | retained =>
    refine hl.frame (exists_alike_update ?_) rfl ?_ (told_same hl hs hs' rfl ?_ []) rfl
    exacts [fun _ _ => rfl, fun m => ⟨rfl, rfl, rfl⟩, fun m => ⟨rfl, rfl, rfl⟩]
  | removed | released =>
    refine hl.frame (exists_alike_update ?_) rfl ?_ ⟨trivial, told_same hl hs hs' rfl ?_ _⟩ rfl
    exacts [fun _ _ => rfl, fun m => ⟨rfl, rfl, rfl⟩, fun m => ⟨rfl, rfl, rfl⟩]
  | notified | sealing =>
    exact hl.frame hkeep rfl hnil ⟨trivial, told_same hl hs hs' rfl hnil _⟩ rfl
  | @flushed slot =>
    have htold := fun above => told_same hl hs hs' rfl hnil above
    rcases flush_cases sc.hubs slot with he | ⟨status, keys, he⟩
    · rw [he] at hs' ⊢
      exact hl.frame hkeep rfl hnil (htold []) rfl
    · rw [he] at hs' ⊢
      exact hl.frame hkeep rfl hnil ⟨trivial, trivial, htold _⟩ rfl
  | @idle d ds hd hi =>
    have hdeliver : ∀ slot status keys, d = .deliver slot status keys →
        keys = [] ∨ sc.hubs.get? slot = none := by
      rintro slot status keys rfl
      exact hi
    have hplaces : places ds = places sc.duties := by
      rw [hd]
      cases d with
      | report p order status contributes =>
        -- the parent of a report is open
        obtain ⟨h, n, w, hg, hst, -⟩ := hl.report_top hs hd
        have hclosed := hi h hg
        rw [hst] at hclosed
        cases hclosed
      | _ => rfl
    exact hl.frame hkeep rfl hnil (told_tail hl hs hs' rfl hnil hd hdeliver) hplaces
  | @skipped slot h status key keys ds hd hg hk =>
    refine hl.frame hkeep rfl hnil (told_shift hl hs hs' rfl hnil hd fun n hn hsub => ?_)
      (by rw [hd]; rfl)
    refine Gone.append (hs.gone_of_notMem hsub hn fun h1 hg1 _ => ?_) []
    obtain rfl : h = h1 := some.inj (hg.symm.trans hg1)
    exact hk
  | @called slot h status key keys ds hd =>
    have haside : Aside [.called (sc.tenant slot) key status] := fun m => ⟨rfl, rfl, rfl⟩
    refine hl.frame (exists_alike_update ?_) rfl haside
      (told_shift hl hs hs' rfl haside hd fun n hn hsub => ?_) (by rw [hd]; rfl)
    · exact fun _ _ => rfl
    · -- the one that is called, or one of the same key of a hub that had the slot before
      by_cases hnt : n = sc.tenant slot
      · exact .inl ⟨status, by simp [hnt]⟩
      · refine Gone.append (hs.gone_of_notMem hsub hn fun h1 hg1 he => ?_) _
        exact absurd he.symm hnt
  | heeded ha => exact hl.heeded hs ha
  | completed ha hdue => exact hl.completed hs ha hdue
  | @dropped slot h ds hd =>
    refine hl.frame (fun k hub hk => ?_) rfl hnil
      (told_tail hl hs hs' rfl hnil hd fun _ _ _ he => by cases he) (by rw [hd]; rfl)
    rw [Slab.get?_erase] at hk
    split at hk
    · cases hk
    · exact ⟨hub, hk, rfl⟩

end

lemma Run.ledger (run : Run false past sc) : Ledger past sc := by
  induction run with
  | start _ empty =>
    refine ⟨⟨?_, ?_, ?_, ?_, ?_⟩, ?_, ?_, ?_, ?_⟩ <;>
      simp [empty, children, reporters, completions, select, Stacked, places]
  | move run hc ih => exact ih.change run.sane hc

/-- The parent of an open hub is open. -/
lemma Run.exists_parent (run : Run false past sc) (hg : sc.hubs.get? slot = some h)
    (hn : h.status = none) (hp : h.parent = some p) :
    ∃ k, sc.hubs.get? p = some k ∧ k.status = none ∧
      sc.tenant slot ∈ children past (sc.tenant p) := by
  obtain ⟨m, hm, hkid⟩ := (run.ledger.kin slot h hg hn).link p hp
  have hmem := mem_of_getElem? hkid
  have hmute : sc.tenant slot ∉ reporters past m := fun hr =>
    (run.ledger.among _ _ hr).2 ((run.sane.tells slot h hg).running hn)
  obtain ⟨k, hk, hkn, rfl⟩ := run.ledger.exists_parent run.sane hmem hmute hm
  exact ⟨k, hk, hkn, hmem⟩

/-- A child is younger than its parent. -/
lemma Run.lt_of_mem_children {free : Bool} (run : Run free past sc) {m : ℕ}
    (hm : n ∈ children past m) : m < n := by
  induction run with
  | start => cases hm
  | @move past os sc sc' run hc ih =>
    rw [children_append] at hm
    refine (mem_append.mp hm).elim ih fun hm => ?_
    have hm := mem_children.mp hm
    cases hc with
    | created parent hp =>
      obtain ⟨rfl, hopen⟩ : n = sc.handles.length ∧ some m = parent.bind sc.openHub? := by
        simpa using hm
      obtain ⟨p, -, hopen⟩ := bind_eq_some_iff.mp hopen.symm
      obtain ⟨h, hg, -, rfl⟩ := exists_openHub hopen
      exact tenant_lt (run.sane.handle p h hg)
    | @heeded _ _ d | @completed _ _ d => cases d <;> simp [Duty.heeded] at hm
    | _ => simp at hm

/-! ### What comes before what -/

/-- Something holds of each note and of what was noted before it. -/
def Whenever (P : Notes → Note → Prop) (past : Notes) : Prop :=
  ∀ pre o post, past = pre ++ o :: post → P pre o

lemma Whenever.append {P : Notes → Note → Prop} (hp : Whenever P past)
    (hos : ∀ pre o post, os = pre ++ o :: post → P (past ++ pre) o) : Whenever P (past ++ os) := by
  intro pre o post he
  rcases append_eq_append_iff.mp he with ⟨new, rfl, hnew⟩ | ⟨new, hpast, hnew⟩
  · exact hos new o post hnew
  · cases new with
    | nil =>
      have hpre : pre = past := by simpa using hpast.symm
      have := hos [] o post hnew.symm
      rwa [append_nil, ← hpre] at this
    | cons o' new =>
      obtain ⟨rfl, -⟩ := cons.inj hnew
      exact hp pre o new hpast

lemma Ledger.pending_eq (hl : Ledger past sc) (hg : sc.hubs.get? slot = some h)
    (hn : h.status = none) :
    h.pending = (children past (sc.tenant slot)).countP (· ∉ reporters past (sc.tenant slot)) := by
  have hsum := (hl.kin slot h hg hn).pending
  set m := sc.tenant slot
  have hsplit : (children past m).length = (children past m).countP (· ∈ reporters past m) +
      (children past m).countP (· ∉ reporters past m) := by
    simpa using length_eq_countP_add_countP (l := children past m) (· ∈ reporters past m)
  have hperm : ((children past m).filter (· ∈ reporters past m)).Perm (reporters past m) := by
    refine (perm_ext_iff_of_nodup ((hl.nodup m).filter _) (hl.once m)).mpr fun n => ?_
    simp only [mem_filter, decide_eq_true_eq]
    exact ⟨And.right, fun hin => ⟨(hl.among m n hin).1, hin⟩⟩
  have hreported : (children past m).countP (· ∈ reporters past m) = (reporters past m).length := by
    rw [countP_eq_length_filter, hperm.length_eq]
  omega

end Scene

namespace Session

open Note

variable {past : Notes} {s : Session}

end Session

end Hub

end JobShell
