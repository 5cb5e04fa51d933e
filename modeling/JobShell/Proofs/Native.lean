import JobShell.Native
import Mathlib.Tactic.Common

/-!
What starting the processes of a job leaves.

A process that cannot be started leaves the processes and the streams that the system knows of as
they were. One that is started runs, and the last one may have its output read by the shell. Nothing
is written to the terminal by that, nor by a signal.
-/

namespace JobShell

open List

/-- Nothing was started, and nothing more is read or watched. -/
structure System.Steady (s s' : System) : Prop where
  nextPid : s'.nextPid = s.nextPid
  taps : s'.taps = s.taps
  watches : s'.watches = s.watches
  events : s'.events = s.events
  terminal : s'.world.terminal = s.world.terminal

/-- Nothing was started, and the world is as it was. -/
structure System.Still (s s' : System) : Prop where
  nextPid : s'.nextPid = s.nextPid
  world : s'.world = s.world

namespace System

variable {s s1 s2 : System}

lemma Steady.refl (s : System) : Steady s s := ⟨rfl, rfl, rfl, rfl, rfl⟩

lemma Steady.trans (h1 : Steady s s1) (h2 : Steady s1 s2) : Steady s s2 :=
  ⟨h2.nextPid.trans h1.nextPid, h2.taps.trans h1.taps, h2.watches.trans h1.watches,
    h2.events.trans h1.events, h2.terminal.trans h1.terminal⟩

lemma steady_reopen {mode : OpenMode} {e : Endpoint} {r : Endpoint × System}
    (h : s.reopen mode e = .ok r) : Steady s r.2 := by
  cases e with
  | file id =>
    simp only [reopen] at h
    split at h
    · rename_i f _
      rcases ho : s.world.files.openPlace f.place mode with err | ⟨place, files⟩
      · simp [ho, bind, Except.bind] at h
      · simp only [ho, bind, Except.bind, pure, Except.pure, Except.ok.injEq] at h
        subst h
        exact ⟨rfl, rfl, rfl, rfl, rfl⟩
    · cases h
  | device | own | reader | writer =>
    simp only [reopen, Except.ok.injEq] at h
    subst h
    exact .refl s

lemma steady_openFile {own : Descriptors} {cwd : Place} {path : String} {mode : OpenMode}
    {r : Endpoint × System} (h : s.openFile own cwd path mode = .ok r) : Steady s r.2 := by
  simp only [openFile] at h
  split at h
  · split at h
    · exact steady_reopen h
    · cases h
  · rcases ho : s.world.files.openAt cwd path mode with err | ⟨place, files⟩
    · simp [ho, bind, Except.bind] at h
    · simp only [ho, bind, Except.bind] at h
      split at h
      · split at h
        · exact steady_reopen h
        · cases h
      · cases h
        exact .refl s
      · cases h
        exact ⟨rfl, rfl, rfl, rfl, rfl⟩

/-! ### Signals start nothing -/

lemma Still.refl (s : System) : Still s s := ⟨rfl, rfl⟩

lemma Still.trans (h1 : Still s s1) (h2 : Still s1 s2) : Still s s2 :=
  ⟨h2.nextPid.trans h1.nextPid, h2.world.trans h1.world⟩

lemma still_setProcess (s : System) (p : Process) : Still s (s.setProcess p) := ⟨rfl, rfl⟩

lemma still_setPipe (s : System) (pipe : ℕ) (data : Bytes) : Still s (s.setPipe pipe data) :=
  ⟨rfl, rfl⟩

lemma still_tellChange (s : System) (pid : Pid) (change : ProcessChange) :
    Still s (s.tellChange pid change) := by
  unfold tellChange
  split <;> exact ⟨rfl, rfl⟩

lemma still_catchSignal (s : System) (pid : Pid) (sig : Signal) :
    Still s (s.catchSignal pid sig) := by
  unfold catchSignal
  split
  · split <;> exact ⟨rfl, rfl⟩
  · exact .refl s

lemma still_foldl {α : Type} {f : System → α → System} (hf : ∀ s a, Still s (f s a)) (s : System)
    (as : List α) : Still s (as.foldl f s) := by
  induction as generalizing s with
  | nil => exact .refl s
  | cons a as ih => exact (hf s a).trans (ih _)

lemma still_drain (s : System) : Still s s.drain := by
  refine still_foldl (fun s t => ?_) s s.taps
  have htell : ∀ (s : System) (d : Bytes), Still s (s.tell (.output t.job t.stream d)) :=
    fun _ _ => ⟨rfl, rfl⟩
  obtain ⟨s1, h1, hs1⟩ : ∃ s1, (if (s.pipe t.pipe).isEmpty then s else
      (pieces (s.pipe t.pipe)).foldl (fun s d => s.tell (.output t.job t.stream d))
        (s.setPipe t.pipe [])) = s1 ∧ Still s s1 := by
    refine ⟨_, rfl, ?_⟩
    split
    · exact .refl s
    · exact (still_setPipe s t.pipe []).trans (still_foldl htell _ _)
  simp only [drainTap, h1]
  split <;> exact ⟨hs1.nextPid, hs1.world⟩

lemma still_finish (s : System) (p : Process) (how : Ending) : Still s (s.finish p how) := by
  unfold finish
  dsimp only
  have horphan : Still s
      ((s.setProcess { p with state := .exited how, descriptors := [] }).orphan p.pid) := ⟨rfl, rfl⟩
  refine Still.trans ?_ ((still_drain _).trans (still_tellChange _ _ _))
  split
  · exact horphan.trans (still_catchSignal _ _ _)
  · exact horphan.trans ⟨rfl, rfl⟩

lemma still_suffer (s : System) (p : Process) (sig : Signal) : Still s (s.suffer p sig) := by
  unfold suffer
  split
  · exact .refl s
  · exact .refl s
  · split
    · exact .refl s
    · exact (still_setProcess s _).trans (still_tellChange _ _ _)
  · split
    · exact ⟨rfl, rfl⟩
    · exact still_finish s p _

lemma still_goOn (s : System) (p : Process) : Still s (s.goOn p) := by
  unfold goOn
  split
  · have htold : ∀ q, Still s ((s.setProcess q).tellChange p.pid .continued) :=
      fun q => (still_setProcess s q).trans (still_tellChange _ _ _)
    dsimp only
    split
    · exact (htold _).trans (still_suffer _ _ _)
    · exact htold _
  · exact .refl s

lemma still_deliver (s : System) (sig : Signal) (pid : Pid) : Still s (s.deliver sig pid) := by
  unfold deliver
  split
  · exact .refl s
  · rename_i p _
    have hgo : Still s (if sig = Signal.resume then s.goOn p else s) := by
      split
      · exact still_goOn s p
      · exact .refl s
    split
    · exact .refl s
    · split
      · exact still_finish s p _
      · dsimp only
        split
        · exact hgo.trans (still_suffer _ _ _)
        · split
          · exact hgo
          · exact hgo.trans (still_catchSignal _ _ _)
          · exact hgo.trans (still_suffer _ _ _)

lemma still_signalGroup (s : System) (group : Pid) (sig : Signal) :
    Still s (s.signalGroup group sig) :=
  still_foldl (fun s pid => still_deliver s sig pid) s _

end System

namespace Native

open JobShell.System

variable {s : System}

lemma still_signal (n : Native) (s : System) (sig : Signal) : Still s (n.signal s sig) := by
  unfold signal
  cases n.group with
  | none => exact .refl s
  | some group => exact still_signalGroup s group sig

lemma still_closeFeed (n : Native) (s : System) : Still s (n.closeFeed s).2 := by
  unfold closeFeed
  dsimp only
  split <;> exact ⟨rfl, rfl⟩

lemma still_write (n : Native) (s : System) (data : Bytes) : Still s (n.write s data) := by
  unfold write
  split
  · split <;> exact ⟨rfl, rfl⟩
  · exact .refl s

lemma still_brokenPipe (n : Native) (s : System) : Still s (n.brokenPipe s).2 := by
  unfold brokenPipe
  have hclose := still_closeFeed n s
  dsimp only
  split
  · exact hclose
  · exact hclose.trans (still_signal _ _ _)

lemma steady_source {streams : Streams} {r : Redirection} {q : Endpoint × System}
    (h : source s streams r = .ok q) : Steady s q.2 := by
  unfold source at h
  split at h
  · cases h
    exact .refl s
  · rename_i n _
    rcases hs : slot n with err | fd
    · simp [hs, Except.map] at h
    · simp only [hs, Except.map, Except.ok.injEq] at h
      subst h
      exact .refl s
  · rename_i path _
    dsimp only at h
    rcases ho : s.openOwn path _ with err | q'
    · rw [ho] at h
      cases h
    · rw [ho] at h
      cases h
      exact steady_openFile ho

lemma steady_redirect (s : System) (streams : Streams) (rs : List Redirection) :
    Steady s (redirect s streams rs).2 := by
  induction rs generalizing s streams with
  | nil => exact .refl s
  | cons r rs ih =>
    simp only [redirect]
    split
    · exact .refl s
    · rename_i hs
      have hsteady := steady_source hs
      split
      · exact hsteady
      · exact hsteady.trans (ih _ _)

/-- What one start comes to: nothing was started, or a process runs, and if it is `tapped` the shell
reads one more stream. -/
inductive Outcome (tapped : Bool) (n n' : Native) (s s' : System) : Prop where
  | failed (steady : Steady s s') (native : n' = { n with failed := true })
  | started (pid : Pid) (failed : n'.failed = n.failed)
      (processes : n'.processes = n.processes ++ [(pid, .running)])
      (openStreams : n'.openStreams = n.openStreams + if tapped then 1 else 0)
      (nextPid : s'.nextPid = s.nextPid + 1)
      (terminal : s'.world.terminal = s.world.terminal)

lemma launch_eq_ok {name : String} {args : List String} {env : Bindings String}
    {streams : Streams} {group : Option Pid} {q : Pid × System}
    (h : s.launch name args env streams group = .ok q) :
    q.2.nextPid = s.nextPid + 1 ∧ q.2.world = s.world := by
  simp only [System.launch] at h
  split at h
  · cases h
  · split at h
    · cases h
    · split at h
      · cases h
        exact ⟨rfl, rfl⟩
      · cases h

lemma steady_inputEnd (s : System) (incoming : Option ℕ) (fed : Bool) :
    Steady s (inputEnd s incoming fed).2.2 := by
  unfold inputEnd
  split
  · exact .refl s
  · split
    · exact ⟨rfl, rfl, rfl, rfl, rfl⟩
    · exact .refl s

lemma steady_outputEnd (s : System) (piped : Bool) : Steady s (outputEnd s piped).2.2 := by
  unfold outputEnd
  split
  · exact ⟨rfl, rfl, rfl, rfl, rfl⟩
  · exact .refl s

variable (job : JobId) (taps : Taps) (errors : Option ℕ) (index : ℕ) (last : Bool) (l : Launch)
  (st : Starting)

lemma startOne_outcome :
    Outcome (last && taps.stdout) st.native (startOne job taps errors index last l st).native
      st.system (startOne job taps errors index last l st).system := by
  have hs1 := steady_inputEnd st.system st.incoming (index == 0 && taps.stdin)
  rcases h1 : inputEnd st.system st.incoming (index == 0 && taps.stdin) with ⟨stdin, feed, s1⟩
  rw [h1] at hs1
  have hs2 := hs1.trans (steady_outputEnd s1 (!last || taps.stdout))
  rcases h2 : outputEnd s1 (!last || taps.stdout) with ⟨stdout, piped, s2⟩
  rw [h2] at hs2
  set streams : Streams := ⟨stdin, stdout, errors.elim (.own 2) .writer⟩ with hstreams
  have hs3 := hs2.trans (steady_redirect s2 streams l.redirections)
  rcases h3 : redirect s2 streams l.redirections with ⟨err | streams', s3⟩
  · rw [h3] at hs3
    simp only [startOne, h1, h2, ← hstreams, h3]
    exact .failed hs3 rfl
  rw [h3] at hs3
  dsimp only at hs3
  rcases h4 : s3.launch l.name l.args (Bindings.override s3.world.env l.renderedEnv)
    streams'.settled st.native.group with err | ⟨pid, s4⟩
  · simp only [startOne, h1, h2, ← hstreams, h3, h4]
    exact .failed hs3 rfl
  · simp only [startOne, h1, h2, ← hstreams, h3, h4]
    obtain ⟨hpid, hworld⟩ := launch_eq_ok h4
    refine .started pid rfl rfl rfl ?_ ?_
    · rw [← hs3.nextPid, ← hpid]
      cases feed <;> cases piped <;> cases (last && taps.stdout) <;> rfl
    · rw [← hs3.terminal, ← hworld]
      cases feed <;> cases piped <;> cases (last && taps.stdout) <;> rfl

lemma terminal_startAll (ls : List Launch) :
    (startAll job taps errors index ls st).system.world.terminal = st.system.world.terminal := by
  induction ls generalizing index st with
  | nil => rfl
  | cons l ls ih =>
    have hone : (startOne job taps errors index ls.isEmpty l st).system.world.terminal =
        st.system.world.terminal := by
      cases startOne_outcome job taps errors index ls.isEmpty l st with
      | failed steady _ => exact steady.terminal
      | started _ _ _ _ _ terminal => exact terminal
    simp only [startAll]
    split
    · exact hone
    · exact (ih _ _).trans hone

/-- What starting all processes comes to: those that were started run, and the shell reads the
output of the last one, if that was started. -/
structure Begun (taps : Taps) (n n' : Native) (s s' : System) : Prop where
  running : ∀ p ∈ n'.processes, p ∈ n.processes ∨ p.2 = .running
  nextPid : s'.nextPid + n.processes.length = s.nextPid + n'.processes.length
  openStreams : n'.openStreams = n.openStreams + if taps.stdout && !n'.failed then 1 else 0

lemma startAll_begun (index : ℕ) (ls : List Launch) (st : Starting) (hls : ls ≠ [])
    (hf : st.native.failed = false) :
    Begun taps st.native (startAll job taps errors index ls st).native st.system
      (startAll job taps errors index ls st).system := by
  induction ls generalizing index st with
  | nil => exact absurd rfl hls
  | cons l ls ih =>
    simp only [startAll]
    have houtcome := startOne_outcome job taps errors index ls.isEmpty l st
    generalize startOne job taps errors index ls.isEmpty l st = st' at houtcome ⊢
    cases houtcome with
    | failed steady native =>
      rw [if_pos (by rw [native])]
      refine ⟨fun p hp => .inl (by rw [native] at hp; exact hp), ?_, ?_⟩
      · rw [native, steady.nextPid]
      · simp [native]
    | started pid failed processes openStreams nextPid _ =>
      have hf' : st'.native.failed = false := failed.trans hf
      have hrunning : ∀ p ∈ st'.native.processes, p ∈ st.native.processes ∨ p.2 = .running := by
        intro p hp
        rw [processes] at hp
        rcases mem_append.mp hp with hp | hp
        · exact .inl hp
        · exact .inr (by rw [mem_singleton.mp hp])
      have hnext : st'.system.nextPid + st.native.processes.length =
          st.system.nextPid + st'.native.processes.length := by
        rw [processes, nextPid, length_append, length_singleton, Nat.add_right_comm, Nat.add_assoc]
      rw [if_neg (by simp [hf'])]
      cases ls with
      | nil =>
        refine ⟨hrunning, hnext, ?_⟩
        simp [startAll, openStreams, hf']
      | cons l' ls' =>
        -- only the last one is read, and this was not it
        obtain ⟨hrun, hnext', hopen⟩ := ih (index + 1) st' (cons_ne_nil _ _) hf'
        refine ⟨fun p hp => ?_, ?_, ?_⟩
        · rcases hrun p hp with hp | hp
          · exact hrunning p hp
          · exact .inr hp
        · refine Nat.add_right_cancel (m := st'.native.processes.length) ?_
          rw [Nat.add_right_comm, hnext', Nat.add_right_comm, hnext, Nat.add_right_comm]
        · rw [hopen]
          simp [openStreams]

/-- The streams that the shell reads of a job that was started. -/
def streams (taps : Taps) (n : Native) : List Stream :=
  (if taps.stdout && !n.failed then [.stdout] else []) ++ if taps.stderr then [.stderr] else []

/-- What starting a job leaves: a process has been started for each that is listed, those run, and
all streams that are wanted are open. -/
lemma start_begun {n n' : Native} {s' : System} {d : Option String}
    (h : n.start job taps s = (d, n', s')) (hn : n.processes = []) (ho : n.openStreams = 0)
    (hf : n.failed = false) (hl : n.launches ≠ []) :
    s'.nextPid = s.nextPid + n'.processes.length ∧
      (n'.processes ≠ [] → (∀ p ∈ n'.processes, p.2 = .running) ∧
        n'.openStreams = (streams taps n').length) := by
  rcases he : makeErrors s taps.stderr with ⟨errors, s1⟩
  obtain ⟨hs1, herrors⟩ : s1.nextPid = s.nextPid ∧ errors.isSome = taps.stderr := by
    unfold makeErrors at he
    split at he <;> cases he <;> simp_all
  obtain ⟨hrun, hnext, hopen⟩ := startAll_begun job taps errors 0 n.launches
    { native := n, system := s1 } hl hf
  rcases hst : startAll job taps errors 0 n.launches { native := n, system := s1 } with
    ⟨m, s2, incoming, diagnostic⟩
  rw [hst] at hrun hnext hopen
  simp only [hn, hs1, ho, length_nil, Nat.add_zero, Nat.zero_add, not_mem_nil,
    false_or] at hrun hnext hopen
  -- the common error stream is one more, if there is anyone to write to it
  rcases h3 : tapErrors job errors m s2 with ⟨m', s3⟩
  obtain ⟨hs3, hp3, hf3, ho3⟩ : s3.nextPid = s2.nextPid ∧ m'.processes = m.processes ∧
      m'.failed = m.failed ∧
      (m.processes ≠ [] → m'.openStreams = m.openStreams + if taps.stderr then 1 else 0) := by
    rcases errors with _ | pipe
    · cases h3
      exact ⟨rfl, rfl, rfl, fun _ => by simp [← herrors]⟩
    · simp only [tapErrors] at h3
      split at h3
      · rename_i hm
        cases h3
        exact ⟨rfl, rfl, rfl, fun hne => absurd (List.isEmpty_iff.mp hm) hne⟩
      · cases h3
        exact ⟨rfl, rfl, rfl, fun _ => by simp [← herrors]⟩
  have hstreams : m.processes ≠ [] → m'.openStreams = (streams taps m').length := by
    intro hne
    rw [ho3 hne, hopen, streams, hf3]
    cases taps.stdout <;> cases taps.stderr <;> cases m.failed <;> rfl
  simp only [start, he, hst, h3] at h
  split at h
  · cases h
    rw [(still_signal _ _ _).nextPid, (still_closeFeed _ _).nextPid]
    refine ⟨?_, fun hne => ⟨?_, ?_⟩⟩
    · exact hs3.trans (hnext.trans (by rw [← hp3]; rfl))
    · exact fun p hp => hrun p (hp3 ▸ hp)
    · exact hstreams (hp3 ▸ hne)
  · cases h
    refine ⟨?_, fun hne => ⟨?_, ?_⟩⟩
    · exact hs3.trans (hnext.trans (by rw [hp3]))
    · exact fun p hp => hrun p (hp3 ▸ hp)
    · exact hstreams (hp3 ▸ hne)

lemma nextPid_start {n n' : Native} {s' : System} {d : Option String}
    (h : n.start job taps s = (d, n', s')) (hn : n.processes = []) (ho : n.openStreams = 0)
    (hf : n.failed = false) : s'.nextPid = s.nextPid + n'.processes.length := by
  by_cases hl : n.launches = []
  · rcases he : makeErrors s taps.stderr with ⟨errors, s1⟩
    have hs1 : s1.nextPid = s.nextPid := by
      unfold makeErrors at he
      split at he <;> cases he <;> rfl
    have htap : tapErrors job errors n s1 = (n, s1) := by
      cases errors <;> simp [tapErrors, hn]
    simp only [start, he, hl, startAll, htap, hf, Bool.false_eq_true, if_false] at h
    cases h
    simp [hn, hs1]
  · exact (start_begun job taps h hn ho hf hl).1

lemma terminal_start (n : Native) (s : System) :
    (n.start job taps s).2.2.world.terminal = s.world.terminal := by
  rcases he : makeErrors s taps.stderr with ⟨errors, s1⟩
  have hs1 : s1.world.terminal = s.world.terminal := by
    unfold makeErrors at he
    split at he <;> cases he <;> rfl
  have hall := terminal_startAll job taps errors 0 { native := n, system := s1 } n.launches
  have htap : ∀ m s2, (tapErrors job errors m s2).2.world = s2.world := by
    intro m s2
    unfold tapErrors
    split
    · split <;> rfl
    · rfl
  simp only [start, he]
  split
  · rw [(still_signal _ _ _).world, (still_closeFeed _ _).world]
    exact (congrArg World.terminal (htap _ _)).trans (hall.trans hs1)
  · exact (congrArg World.terminal (htap _ _)).trans (hall.trans hs1)

end Native

end JobShell
