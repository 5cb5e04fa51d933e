import JobShell.Proofs.Engine.Stopping

/-!
What is told of jobs, and what the table shows of them.

Of each change of a listed job the console is told by one notice. It has the number the table has,
and the mark of the foreground before a job leaves the table or after it stops; its text is the
job's own, which the table shows for a job that is not fed by another, and its mark when a job goes
on is the job's mode.
-/

namespace JobShell

open Registry Relation List JobTable

namespace JobTable

variable {t : JobTable} {n : ℕ} {x : Entry}

lemma get?_of_mem (h : (t.entries.map Prod.fst).Nodup) (hx : (n, x) ∈ t.entries) :
    t.get? n = some (t.infoOf n x) := by
  rw [get?, entry?, (lookup_eq_some_iff_mem h).mpr hx]
  rfl

lemma get?_update_final {state : JobState} (hs : state.isFinal = true) (status : Option Int) :
    (t.update n state status).2.get? n = none := by
  have hgone : (t.entries.filter (·.1 != n)).lookup n = none := by
    refine lookup_eq_none_iff.mpr fun p hp => ?_
    have hne : p.1 ≠ n := by simpa using (mem_filter.mp hp).2
    simpa using hne.symm
  rw [get?, entry?, entries_update_final hs, hgone]
  rfl

end JobTable

/-- What a notice says of a job next to what the table shows: the text is the job's own, and the
mark of a job that goes on is its mode. -/
structure Tells (c : Card) (info shown : JobInfo) : Prop where
  id : info.id = shown.id
  own : info.command = c.command
  command : c.fed = false → info.command = shown.command
  mode : info.state = .running → info.foreground = (c.mode == .foreground)
  foreground : info.state ≠ .running → info.foreground = shown.foreground
  stopped : info.state = .stopped → info.foreground = false

namespace Registry

variable {R R' S : Registry} {id : JobId} {c : Card} {n : ℕ}

lemma Agrees.shown_restate (a : R.Agrees) (h : (id, c) ∈ R.jobs) (hn : c.tableId = some n)
    (state : JobState) (hs : state.isFinal = false) (hu : state ≠ .unstarted) :
    ∃ x, (n, x) ∈ R.table.entries ∧ (R.restate id c state).table.get? n =
      some ⟨n, x.command, state, none, (R.restate id c state).table.foreground == some n⟩ := by
  obtain ⟨x, hx, -⟩ := a.entry h hn
  have hmem : (n, { x with state, status := none }) ∈ (R.restate id c state).table.entries := by
    rw [entries_restate_some hs hn]
    exact mem_assign.mpr (.inr ⟨rfl, x, hx, rfl⟩)
  exact ⟨x, hx, get?_of_mem (a.restate h hs hu).numbers hmem⟩

/-- Nothing is told, or one thing of one job: what the table shows of it then, or showed before the
job left it. -/
def Told (R R' : Registry) : Prop :=
  R'.news = R.news ∨ ∃ id c info shown, (id, c) ∈ R.jobs ∧ c.tableId = some info.id ∧
    Tells c info shown ∧ R'.news = R.news.map (· ++ [info]) ∧
    if info.state.isFinal then R.table.get? info.id = some shown ∧ R'.table.get? info.id = none
    else R'.table.get? info.id = some shown

lemma told_tell (h : (id, c) ∈ R.jobs) {info : ℕ → JobInfo} (hnews : S.news = R.news)
    (hid : ∀ n, (info n).id = n)
    (hinfo : ∀ n, c.tableId = some n → ∃ shown, Tells c (info n) shown ∧
      if (info n).state.isFinal then R.table.get? n = some shown ∧ S.table.get? n = none
      else S.table.get? n = some shown) : Told R (S.tell c.tableId info) := by
  rcases hn : c.tableId with _ | n
  · exact .inl hnews
  · obtain ⟨shown, htells, hshown⟩ := hinfo n hn
    refine .inr ⟨id, c, info n, shown, h, by rw [hn, hid], htells, ?_, by rw [hid]; exact hshown⟩
    rw [← hnews]
    rfl

lemma Move.told (m : Move R R') (a : R.Agrees) (t : R.Titled) : Told R R' := by
  cases m with
  | enter | launch | start | adjust | enliven | take => exact .inl rfl
  | @stop id c h =>
    refine told_tell h (by split <;> rfl) (fun _ => rfl) fun n hn => ?_
    obtain ⟨x, hx, hshown⟩ := a.shown_restate h hn .stopped rfl (by simp)
    have hf : ((R.restate id c .stopped).table.foreground == some n) = false := by
      simp only [restate, hn, Option.elim, foreground_update (a.contains h hn)]
      grind
    rw [hf] at hshown
    refine ⟨⟨n, x.command, .stopped, none, false⟩, ⟨rfl, rfl,
      fun hf => (t id c n x h hn hx hf).symm, by simp, fun _ => rfl, fun _ => rfl⟩, ?_⟩
    rw [if_neg (by simp [JobState.isFinal])]
    split <;> exact hshown
  | @resume id c h =>
    refine told_tell h rfl (fun _ => rfl) fun n hn => ?_
    obtain ⟨x, hx, hshown⟩ := a.shown_restate h hn .running rfl (by simp)
    exact ⟨⟨n, x.command, .running, none, _⟩, ⟨rfl, rfl, fun hf => (t id c n x h hn hx hf).symm,
      fun _ => rfl, fun hr => absurd rfl hr, by simp⟩, hshown⟩
  | @leave id c state h hs status =>
    refine told_tell h (by split <;> rfl) (fun _ => rfl) fun n hn => ?_
    obtain ⟨x, hx, -⟩ := a.entry h hn
    have hopen : ∀ {s : JobState}, s.isFinal = false → state ≠ s := by
      rintro s hf rfl
      cases hf.symm.trans hs
    refine ⟨R.table.infoOf n x, ⟨rfl, rfl, fun hf => (t id c n x h hn hx hf).symm,
      fun hr => absurd hr (hopen rfl), fun _ => rfl, fun hr => absurd hr (hopen rfl)⟩, ?_⟩
    rw [if_pos hs]
    refine ⟨get?_of_mem a.numbers hx, ?_⟩
    have hgone := get?_update_final (t := R.table) (n := n) hs (some status)
    simp only [without, hn, Option.elim]
    split <;> exact hgone

end Registry

namespace Engine

variable {e e' : Engine}

lemma Reachable.titled (h : Reachable e) : e.registry.Titled := by
  obtain ⟨config, services, system, direct, h⟩ := h
  induction h with
  | refl => exact fun id c n x hc => nomatch hc
  | @tail e e' h ha ih =>
    have a := (Reachable.kept ⟨config, services, system, direct, h⟩).toAgrees
    exact ih.moves a (ha.moves.path a)

/-- All that is done tells the console of at most one job, by a notice that says what the table
shows of it then, or showed before the job left it. Its text is the job's own, which is what the
table shows unless another job feeds this one; and the mark of a job that goes on is its mode. -/
theorem Reachable.notices_agree (h : Reachable e) (ha : Act e e') :
    e'.console.news? = e.console.news? ∨ ∃ id j info shown, e.job? id = some j ∧
      j.tableId = some info.id ∧ Tells j.card info shown ∧
      e'.console.news? = e.console.news?.map (· ++ [info]) ∧
      if info.state.isFinal then e.table.get? info.id = some shown ∧ e'.table.get? info.id = none
      else e'.table.get? info.id = some shown := by
  have a := h.kept.toAgrees
  rcases ha.moves a with hs | hm
  · exact .inl (news_of_silent hs)
  · refine (hm.told a h.titled).imp_right ?_
    rintro ⟨id, c, info, shown, hc, hn, htells, hnews, hshown⟩
    obtain ⟨j, hj, rfl⟩ := (job?_of_mem_registry a).mp hc
    exact ⟨id, j, info, shown, hj, hn, htells, hnews, hshown⟩

/-- `say a` in the foreground, before it is run. -/
def saying : Engine :=
  (talking.startPipeline [{ name := "say", args := [.text "a"] }] {} none false).2

theorem notices_agree_saying :
    ∃ info shown, (saying.runTask (.runChain 1)).1.console.news? = some [info] ∧
      saying.table.get? 1 = some shown ∧ info.command = shown.command ∧
      info.foreground = shown.foreground := by
  have hreach : Reachable saying :=
    ⟨{}, talking.services, {}, false, .single (.startPipeline _ _ _ _ _)⟩
  have hbefore : saying.console.news? = some [] := by decide +kernel
  have hafter : ((saying.runTask (.runChain 1)).1.console.news?.bind head?).map
      (fun i => (i.id, i.state)) = some (1, .terminated) := by decide +kernel
  have hunfed : ∀ p ∈ saying.registry.jobs, p.2.fed = false := by decide +kernel
  rcases hreach.notices_agree (.runTask saying (.runChain 1)) with
    hsame | ⟨id, j, info, shown, hj, hn, htells, hnews, hshown⟩
  · rw [hsame, hbefore] at hafter
    cases hafter
  · rw [hbefore] at hnews
    rw [hnews] at hafter
    obtain ⟨hid, hstate⟩ : info.id = 1 ∧ info.state = .terminated := by simpa using hafter
    rw [hid, hstate] at hshown
    obtain ⟨hshown, -⟩ := hshown
    exact ⟨info, shown, hnews, hshown, htells.command (hunfed _ (mem_registry hj)),
      htells.foreground (by rw [hstate]; decide)⟩

/-- `say a | sort 7>&-` is listed by its whole text, but told of by that of its last job; and a job
in the foreground that was stopped goes on with the mark of its mode, while the table has no job in
the foreground. -/
theorem told_otherwise :
    let e := (talking.startPipeline [{ name := "say", args := [.text "a"] },
      { name := "sort", redirections := [⟨.dupOutput, 7, .close⟩] }] {} none false).2
    let e' := (piping.replay [.process 1 0 .stopped, .process 1 1 .stopped,
      .process 1 0 .continued]).1
    (e.table.get? 1).map (·.command) = some "say a | sort 7>&-" ∧
      (e.runTask (.fail 2)).1.console.news? =
        some [⟨1, "sort 7>&-", .failed, some 127, true⟩] ∧
      (e'.table.get? 1).map (·.foreground) = some false ∧
      (e'.console.news?.bind getLast?).map (·.foreground) = some true := by
  decide +kernel

end Engine

end JobShell
