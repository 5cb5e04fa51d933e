import JobShell.Chain
import JobShell.Native
import Mathlib.Data.List.Basic

/-!
The two ways to follow redirections.

A routine only plans where its streams end and opens a file when it has something to write there; a
process gets its streams connected at once, and files are opened as redirections are met. For
redirections of output both ways come to the same ends, as long as no file is named after `>&`: that
one is opened for a process and passed over for a routine.
-/

namespace JobShell

open List Native

open Chain (Dest Routes)

namespace Redirection

/-- A redirection of one of the two output streams, to a file, to one of the two, or to nowhere. -/
structure Outgoing (r : Redirection) : Prop where
  op : r.op = .output ∨ r.op = .append ∨ r.op = .dupOutput
  fd : r.fd = 1 ∨ r.fd = 2
  target : ∀ n, r.target = .fd n → n = 1 ∨ n = 2

/-- The target is of the kind that the operator takes: a file after `>` and `>>`, a stream
after `>&`. -/
def Suits (r : Redirection) : Prop :=
  match r.target with
  | .file _ => r.op ≠ .dupOutput
  | .fd _ => r.op = .dupOutput
  | .close => True

lemma suits_ofText {op : Tree.RedirectOp} {fd : Int} {text : String}
    (hop : op = .output ∨ op = .append ∨ op = .dupOutput)
    (hf : op = .dupOutput → ∀ path, Target.ofText op text ≠ .file path) :
    (ofText op fd text).Suits := by
  rcases hop with rfl | rfl | rfl
  · simp [Suits, ofText, Target.ofText]
  · simp [Suits, ofText, Target.ofText]
  · rcases ht : Target.ofText .dupOutput text with path | n | _
    · exact absurd ht (hf rfl path)
    · simp [Suits, ofText, ht]
    · simp [Suits, ofText, ht]

def appends (r : Redirection) : Bool := r.op == .append

/-- How the file of an output redirection is opened. -/
def mode (r : Redirection) : OpenMode := if r.appends then .appending else .writing

/-- Every file can be opened when its turn comes. -/
inductive Openable : System → List Redirection → Prop
  | nil (s : System) : Openable s []
  | file {s s' : System} {r : Redirection} {rs : List Redirection} {path : String} {e : Endpoint}
      (target : r.target = .file path) (opened : s.openOwn path r.mode = .ok (e, s'))
      (rest : Openable s' rs) : Openable s (r :: rs)
  | other {s : System} {r : Redirection} {rs : List Redirection}
      (target : ∀ path, r.target ≠ .file path) (rest : Openable s rs) : Openable s (r :: rs)

/-- Opens the files one after the other. -/
def opensAll (s : System) : List Redirection → Bool
  | [] => true
  | r :: rs =>
    match r.target with
    | .file path =>
      match s.openOwn path r.mode with
      | .ok (_, s) => opensAll s rs
      | .error _ => false
    | _ => opensAll s rs

lemma openable_iff {s : System} {rs : List Redirection} : Openable s rs ↔ opensAll s rs = true := by
  constructor
  · intro h
    induction h with
    | nil => rfl
    | file ht ho _ ih => simpa [opensAll, ht, ho] using ih
    | @other s r rs ht _ ih =>
      rcases h : r.target with path | n | _
      · exact absurd h (ht path)
      · simpa [opensAll, h] using ih
      · simpa [opensAll, h] using ih
  · intro h
    fun_induction opensAll s rs with
    | case1 s => exact .nil s
    | case2 s r rs path ht e s' ho ih => exact .file ht ho (ih h)
    | case3 => simp at h
    | case4 s r rs ht ih => exact .other (fun path he => ht path he) (ih h)

instance (s : System) (rs : List Redirection) : Decidable (Openable s rs) :=
  decidable_of_iff _ openable_iff.symm

/-- A file is opened when its turn comes, and this is what a stream is connected to then. -/
inductive Opens : System → List Redirection → String → Bool → Endpoint → Prop
  | now {s s' : System} {r : Redirection} {rs : List Redirection} {path : String} {e : Endpoint}
      (target : r.target = .file path) (opened : s.openOwn path r.mode = .ok (e, s')) :
      Opens s (r :: rs) path r.appends e
  | afterFile {s s' : System} {r : Redirection} {rs : List Redirection} {path path' : String}
      {append : Bool} {e e' : Endpoint} (target : r.target = .file path)
      (opened : s.openOwn path r.mode = .ok (e, s')) (rest : Opens s' rs path' append e') :
      Opens s (r :: rs) path' append e'
  | afterOther {s : System} {r : Redirection} {rs : List Redirection} {path : String}
      {append : Bool} {e : Endpoint} (target : ∀ path, r.target ≠ .file path)
      (rest : Opens s rs path append e) : Opens s (r :: rs) path append e

/-- What a routine's stream ends in and what a process's stream is connected to are the same, for
streams that were `o` before. -/
inductive Leads (s : System) (o : Streams) (rs : List Redirection) : Dest → Endpoint → Prop
  | out : Leads s o rs .out o.stdout
  | err : Leads s o rs .err o.stderr
  | closed : Leads s o rs .closed .null
  | file {path : String} {append : Bool} {e : Endpoint} (opens : Opens s rs path append e) :
      Leads s o rs (.file path append) e

/-! ### One redirection -/

section Single

variable {r : Redirection} {n : Int} {path : String} {s s' : System} {e : Endpoint}

lemma redirect_file (hr : r.Outgoing) (hs : r.Suits) (ht : r.target = .file path) (q : Routes)
    (w : World) : q.redirect w r = (.ok (q.set r.fd (.file path r.appends)), w) := by
  obtain ⟨op, fd, target⟩ := r
  subst ht
  rcases hr.op with rfl | rfl | rfl
  · rfl
  · rfl
  · exact absurd rfl hs

lemma redirect_fd (hr : r.Outgoing) (hs : r.Suits) (ht : r.target = .fd n) (q : Routes)
    (w : World) :
    q.redirect w r = (.ok (q.set r.fd (if n = 1 then q.stdout else q.stderr)), w) := by
  obtain ⟨op, fd, target⟩ := r
  subst ht
  have hop : op = .dupOutput := hs
  subst hop
  rcases hr.target n rfl with rfl | rfl
  · rfl
  · rfl

lemma redirect_close (hr : r.Outgoing) (ht : r.target = .close) (q : Routes) (w : World) :
    q.redirect w r = (.ok (q.set r.fd .closed), w) := by
  obtain ⟨op, fd, target⟩ := r
  subst ht
  rcases hr.op with rfl | rfl | rfl <;> rfl

lemma source_file (hr : r.Outgoing) (ht : r.target = .file path)
    (ho : s.openOwn path r.mode = .ok (e, s')) (o : Streams) :
    source s o r = .ok (e, s') := by
  obtain ⟨op, fd, target⟩ := r
  subst ht
  rcases hr.op with rfl | rfl | rfl <;>
  · simp only [mode, appends] at ho
    simp only [source]
    exact congrArg (Except.mapError _) ho

lemma source_fd (hr : r.Outgoing) (ht : r.target = .fd n) (s : System) (o : Streams) :
    source s o r = .ok (if n = 1 then o.stdout else o.stderr, s) := by
  rcases hr.target n ht with rfl | rfl <;>
  simp [source, ht, slot, Except.map, Streams.get]

lemma source_close (ht : r.target = .close) (s : System) (o : Streams) :
    source s o r = .ok (.null, s) := by
  simp [source, ht]

lemma slot_fd (hr : r.Outgoing) : slot r.fd = .ok (if r.fd = 1 then 1 else 2) := by
  rcases hr.fd with h | h <;> simp [h, slot]

end Single

/-! ### All of them -/

/-- Two ends of each output stream, one for a routine and one for a process. -/
structure Joined (R : Dest → Endpoint → Prop) (q : Routes) (o : Streams) : Prop where
  stdout : R q.stdout o.stdout
  stderr : R q.stderr o.stderr

section Joined

variable {R : Dest → Endpoint → Prop} {q : Routes} {o : Streams} {r : Redirection} {d : Dest}
  {e : Endpoint}

lemma Joined.set (h : Joined R q o) (hr : r.Outgoing) (hd : R d e) :
    Joined R (q.set r.fd d) (o.set (if r.fd = 1 then 1 else 2) e) := by
  rcases hr.fd with hfd | hfd <;>
  · simp only [hfd]
    exact ⟨by simp [Routes.set, Streams.set, hd, h.stdout],
      by simp [Routes.set, Streams.set, hd, h.stderr]⟩

lemma Joined.get (h : Joined R q o) (n : Int) :
    R (if n = 1 then q.stdout else q.stderr) (if n = 1 then o.stdout else o.stderr) := by
  split
  · exact h.stdout
  · exact h.stderr

lemma input_set (q : Routes) (fd : Int) (d : Dest) : (q.set fd d).input = q.input := by
  unfold Routes.set
  split_ifs <;> rfl

lemma stdin_set (hr : r.Outgoing) (o : Streams) (e : Endpoint) :
    (o.set (if r.fd = 1 then 1 else 2) e).stdin = o.stdin := by
  rcases hr.fd with hfd | hfd <;> simp [hfd, Streams.set]

/-- The ends stay joined by any relation that holds between nowhere and the null device, and
between a file and what opening it gives. -/
lemma follow_redirect {s : System} {rs : List Redirection} (ho : Openable s rs) (w : World)
    (hout : ∀ r ∈ rs, r.Outgoing) (hsuit : ∀ r ∈ rs, r.Suits) (hclosed : R .closed .null)
    (hfile : ∀ path append e, Opens s rs path append e → R (.file path append) e)
    (hj : Joined R q o) :
    ∃ q' o' s', q.follow w rs = (.ok q', w) ∧ redirect s o rs = (.ok o', s') ∧
      q'.input = q.input ∧ o'.stdin = o.stdin ∧ Joined R q' o' := by
  induction ho generalizing q o with
  | nil s => exact ⟨q, o, s, rfl, rfl, rfl, rfl, hj⟩
  | @file s s' r rs path e ht hopen _ ih =>
    have hr := hout r mem_cons_self
    have hnow : R (.file path r.appends) e := hfile _ _ _ (.now ht hopen)
    obtain ⟨q', o', s'', hq, ho', hin, hstdin, hj'⟩ :=
      ih (fun r hm => hout r (mem_cons_of_mem _ hm))
        (fun r hm => hsuit r (mem_cons_of_mem _ hm))
        (fun path append e h => hfile path append e (.afterFile ht hopen h)) (hj.set hr hnow)
    refine ⟨q', o', s'', ?_, ?_, ?_, ?_, hj'⟩
    · rw [Routes.follow, redirect_file hr (hsuit r mem_cons_self) ht]
      exact hq
    · rw [redirect, source_file hr ht hopen, slot_fd hr]
      exact ho'
    · rw [hin, input_set]
    · rw [hstdin, stdin_set hr]
  | @other s r rs hnf _ ih =>
    have hr := hout r mem_cons_self
    obtain ⟨d, e, hd, hplan, hsource⟩ : ∃ d e, R d e ∧
        q.redirect w r = (.ok (q.set r.fd d), w) ∧ source s o r = .ok (e, s) := by
      rcases ht : r.target with path | n | _
      · exact absurd ht (hnf path)
      · exact ⟨_, _, hj.get n, redirect_fd hr (hsuit r mem_cons_self) ht q w, source_fd hr ht s o⟩
      · exact ⟨_, _, hclosed, redirect_close hr ht q w, source_close ht s o⟩
    obtain ⟨q', o', s'', hq, ho', hin, hstdin, hj'⟩ :=
      ih (fun r hm => hout r (mem_cons_of_mem _ hm))
        (fun r hm => hsuit r (mem_cons_of_mem _ hm))
        (fun path append e h => hfile path append e (.afterOther hnf h)) (hj.set hr hd)
    refine ⟨q', o', s'', ?_, ?_, ?_, ?_, hj'⟩
    · rw [Routes.follow, hplan]
      exact hq
    · rw [redirect, hsource, slot_fd hr]
      exact ho'
    · rw [hin, input_set]
    · rw [hstdin, stdin_set hr]

end Joined

/-- A routine and a process whose output is redirected alike write to the same ends, and read what
they read before. -/
theorem routine_ends_as_process (s : System) (w : World) (o : Streams) {rs : List Redirection}
    (hout : ∀ r ∈ rs, r.Outgoing) (hsuit : ∀ r ∈ rs, r.Suits) (hopen : Openable s rs) :
    ∃ q o' s', Routes.plan w rs = (.ok q, w) ∧ Native.redirect s o rs = (.ok o', s') ∧
      q.input = none ∧ o'.stdin = o.stdin ∧
      Leads s o rs q.stdout o'.stdout ∧ Leads s o rs q.stderr o'.stderr := by
  have hstart : Joined (Leads s o rs) {} o := ⟨.out, .err⟩
  obtain ⟨q, o', s', hq, ho, hin, hstdin, hj⟩ :=
    follow_redirect hopen w hout hsuit .closed (fun _ _ _ h => .file h) hstart
  exact ⟨q, o', s', hq, ho, hin, hstdin, hj.stdout, hj.stderr⟩

/-- The output to a file, the errors to where the output goes by then, and the output to another
file after that. -/
def crossed : List Redirection :=
  [ofText .output 1 "f", ofText .dupOutput 2 "1", ofText .append 1 "g"]

theorem routine_ends_as_process_crossed :
    Openable (.standard {}) crossed ∧
    ∃ q o' s', Routes.plan {} crossed = (.ok q, {}) ∧
      Native.redirect (.standard {}) ⟨.own 0, .own 1, .own 2⟩ crossed = (.ok o', s') ∧
      q.input = none ∧ o'.stdin = .own 0 ∧
      Leads (.standard {}) ⟨.own 0, .own 1, .own 2⟩ crossed q.stdout o'.stdout ∧
      Leads (.standard {}) ⟨.own 0, .own 1, .own 2⟩ crossed q.stderr o'.stderr := by
  have hopen : Openable (.standard {}) crossed := openable_iff.mpr (by decide +kernel)
  have hone : Target.ofText .dupOutput "1" = .fd 1 := by decide +kernel
  have hf : Target.ofText .output "f" = .file "f" := rfl
  have hg : Target.ofText .append "g" = .file "g" := rfl
  have hall : ∀ r ∈ crossed, r.Outgoing ∧ r.Suits := by
    simp only [crossed, forall_mem_cons, not_mem_nil, false_implies, implies_true, and_true]
    refine ⟨⟨⟨?_, ?_, ?_⟩, suits_ofText ?_ ?_⟩, ⟨⟨?_, ?_, ?_⟩, suits_ofText ?_ ?_⟩,
      ⟨⟨?_, ?_, ?_⟩, suits_ofText ?_ ?_⟩⟩
    all_goals simp [ofText, hone, hf, hg]
  exact ⟨hopen, routine_ends_as_process _ _ _ (fun r hr => (hall r hr).1)
    (fun r hr => (hall r hr).2) hopen⟩

/-- With a file after `>&` the output of a process goes to the file, while that of a routine goes
where it went before. -/
theorem routine_passes_over_file :
    (ofText .dupOutput 1 "f").Outgoing ∧ Openable (.standard {}) [ofText .dupOutput 1 "f"] ∧
    ∃ q o' s', Routes.plan {} [ofText .dupOutput 1 "f"] = (.ok q, {}) ∧
      Native.redirect (.standard {}) ⟨.own 0, .own 1, .own 2⟩ [ofText .dupOutput 1 "f"] =
        (.ok o', s') ∧
      q.stdout = .out ∧ o'.stdout = .file 0 ∧
      ¬ Leads (.standard {}) ⟨.own 0, .own 1, .own 2⟩ [ofText .dupOutput 1 "f"] q.stdout
        o'.stdout := by
  have htext : ofText .dupOutput 1 "f" = ⟨.dupOutput, 1, .file "f"⟩ := by decide +kernel
  have hopen : Openable (.standard {}) [⟨.dupOutput, 1, .file "f"⟩] :=
    openable_iff.mpr (by decide +kernel)
  have hout : (⟨.dupOutput, 1, .file "f"⟩ : Redirection).Outgoing := ⟨by simp, by simp, by simp⟩
  rw [htext]
  refine ⟨hout, hopen, ?_⟩
  cases hopen with
  | other ht => exact absurd rfl (ht "f")
  | @file _ s' _ _ _ e ht ho =>
    cases ht
    have he : e = .file 0 := by
      have h0 : ((System.standard {}).openOwn "f" .writing).map Prod.fst =
          .ok (.file 0) := by decide +kernel
      rw [show (System.standard {}).openOwn "f" .writing = .ok (e, s') from ho] at h0
      simpa [Except.map] using h0
    refine ⟨{}, ⟨.own 0, e, .own 2⟩, s', rfl, ?_, rfl, he, ?_⟩
    · rw [redirect, source_file hout rfl ho, slot_fd hout]
      rfl
    · rw [he]
      rintro ⟨⟩

end Redirection

end JobShell
