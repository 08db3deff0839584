/-
Retries of a request whose context is done (client.go, `DoWithContext`; retry.go,
`WaitAdaptive`).

Between two attempts only the wait looks at the context, and it does not if the delay is
not positive; behind a timeout or a failed connection it is zero.

* `CancelScript` — a script that also says at the top of which attempts the context is
  done;
* `acquired_eq_range`, `mem_contacted_iff` — which attempts are made, and ask the pool for a
  connection;
* `cancellation_iff` — when no attempt is made with the context done;
* `cancellation_ignored` — a run in which three are.
-/
import BurstHttp.RetryLoop

namespace BurstHttp

/-- The attempt for which the pool or a connection is called. -/
def Call.contact : Call → Option ℕ
  | .getConnection n _ | .connDo n _ => some n
  | _ => none

/-- A script, and whether the context is done at the top of each attempt. -/
structure CancelScript extends CallEnv where
  done : ℕ → Bool
  done_mono : ∀ n, done n = true → done (n + 1) = true

namespace Dispatcher

variable {c : Dispatcher} {env : CallEnv}

/-! ### Attempts and calls -/

/-- The attempts that have asked the pool or a connection. -/
def contacted (log : List Call) : List ℕ := log.filterMap Call.contact

@[simp] theorem contacted_append (l l' : List Call) :
    contacted (l ++ l') = contacted l ++ contacted l' := List.filterMap_append

theorem mem_contacted {log : List Call} {m : ℕ} :
    m ∈ contacted log ↔ ∃ call ∈ log, call.contact = some m := List.mem_filterMap

theorem sends_of_contact {call : Call} {m : ℕ} (h : call.contact = some m) :
    call.sends = true := by
  cases call with
  | getConnection n target => rfl
  | connDo n path => rfl
  | _ => cases h

theorem contacted_retryCalls (n : ℕ) : contacted (c.retryCalls n) = [] := by
  refine List.filterMap_eq_nil_iff.mpr fun call hcall => ?_
  rw [eq_of_mem_retryCalls hcall]
  rfl

/-- Without a scheduler every attempt asks the pool. -/
theorem mem_contacted_attemptCalls (hsched : c.scheduler = false) (env : AttemptEnv)
    (target : Pool.Target) (n m : ℕ) (req : ClientRequest) :
    m ∈ contacted (c.attemptCalls env target n req) ↔ m = n := by
  have hsend : c.sendCalls env target n req.effectivePath
      = .getConnection n target :: if env.conn then [.connDo n req.effectivePath] else [] := by
    rw [sendCalls, hsched, if_neg (by simp)]
  rw [mem_contacted]
  constructor
  · rintro ⟨call, hcall, hcontact⟩
    rw [mem_attemptCalls (sends_of_contact hcontact), hsend] at hcall
    rcases List.mem_cons.mp hcall with rfl | hcall
    · exact (Option.some.inj hcontact).symm
    · split at hcall
      · obtain rfl := List.mem_singleton.mp hcall
        exact (Option.some.inj hcontact).symm
      · cases hcall
  · rintro rfl
    refine ⟨.getConnection m target, ?_, rfl⟩
    rw [mem_attemptCalls rfl, hsend]
    exact List.mem_cons_self

/-- The attempts that ask the pool are those that take a response object. -/
theorem mem_contacted_loop (hsched : c.scheduler = false) {target : Pool.Target} {k : ℕ}
    {req : ClientRequest} (m : ℕ) :
    m ∈ contacted (c.loop env target k 0 ⟨req, none, .none, []⟩).2.log ↔
      m ∈ acquired (c.loop env target k 0 ⟨req, none, .none, []⟩).2.log := by
  refine loop_invariant (P := fun log _ => m ∈ contacted log ↔ m ∈ acquired log) ?_ ?_ ?_ Iff.rfl
  · intro n log req h
    rw [contacted_append, acquired_append, contacted_retryCalls, (c.retryCalls_objects n).1]
    simpa using h
  · exact fun log req h => h
  · intro n log req h
    rw [contacted_append, acquired_append, List.mem_append, List.mem_append, h,
      mem_contacted_attemptCalls hsched, (c.attemptCalls_objects _ _ _ _).1, List.mem_singleton]

/-! ### Waits -/

variable (c env) in
/-- Attempt `m` begins: the attempts before it have all gone on, and it is not one too many. -/
def Begins (m : ℕ) : Prop := (m : ℤ) < c.maxAttempts ∧ ∀ n < m, c.goesOn env n = true

variable (c env) in
/-- The wait before attempt `m` takes time, and ends with the context. -/
def WaitNotices (m : ℕ) : Prop :=
  0 < c.delay (env.attempts m) m (c.lastBefore env m) ∧ (env.attempts m).select.isSome = true

theorem isSome_waitErr_iff {m : ℕ} (hm : 0 < m) :
    (c.waitErr env m).isSome = true ↔ c.WaitNotices env m := by
  rw [waitErr, if_neg (by omega), waitAdaptive, WaitNotices]
  split
  · constructor
    · intro h
      cases h
    · rintro ⟨hpos, -⟩
      omega
  · constructor
    · intro h
      exact ⟨by omega, h⟩
    · exact fun h => h.2

/-- The attempts that are made: those that begin and whose wait is not cancelled. -/
theorem acquired_eq_range {req req' : ClientRequest} {target : Pool.Target}
    (h : c.prepare env req = (.ok target, req')) :
    ∃ count, acquired (c.doWithContext env req).2.1 = List.range count ∧
      ∀ m, m < count ↔ c.Begins env m ∧ (c.waitErr env m).isSome = false := by
  by_cases hmax : c.retry.maxRetries = 2 ^ 63 - 1
  · -- there is no attempt
    refine ⟨0, ?_, fun m => ?_⟩
    · rw [(doWithContext_wraps h hmax).2]
      rfl
    · rw [Begins, maxAttempts_wraps hmax]
      omega
  obtain ⟨last, hgo, hstop, hle⟩ := c.exists_last env
  have htop : c.Top env 0 ⟨req', none, .none, []⟩ := ⟨rfl, fun i => rfl, rfl⟩
  have hended : c.Ended env last _ (c.loop env target c.maxAttempts.toNat 0 _).2.log :=
    loop_ended htop (Nat.zero_le _) (by rw [maxAttempts_eq hmax]; omega) (fun m _ => hgo m) hstop
  refine ⟨c.endCount env last, ?_, fun m => ?_⟩
  · rw [(doWithContext_eq h).2]
    exact hended.acquired
  rw [endCount, Begins, maxAttempts_eq hmax]
  -- those that begin are those up to the last one
  have hbegins : (∀ n < m, c.goesOn env n = true) ↔ m ≤ last := by
    constructor
    · intro hall
      by_contra hlt
      rw [hall last (by omega)] at hstop
      cases hstop
    · exact fun hm n hn => hgo n (by omega)
  rw [hbegins]
  -- and of those only the last one can have a wait that is cancelled
  have hwait : m < last → (c.waitErr env m).isSome = false := by
    intro hm
    have hgoes := hgo m hm
    rw [goesOn, Bool.and_eq_true] at hgoes
    simpa using hgoes.1
  rcases Nat.lt_trichotomy m last with hm | rfl | hm
  · rw [hwait hm]
    split_ifs <;> simp <;> omega
  · cases (c.waitErr env m).isSome with
    | true => simp
    | false => simp; omega
  · constructor
    · intro hm'
      split at hm' <;> omega
    · omega

/-- Without a scheduler, the attempts that are made are those that ask the pool. -/
theorem mem_contacted_iff (hsched : c.scheduler = false) {req req' : ClientRequest}
    {target : Pool.Target} (h : c.prepare env req = (.ok target, req')) (m : ℕ) :
    m ∈ contacted (c.doWithContext env req).2.1 ↔
      c.Begins env m ∧ (c.waitErr env m).isSome = false := by
  obtain ⟨count, hacquired, hcount⟩ := acquired_eq_range h
  rw [← hcount, ← List.mem_range, ← hacquired, (doWithContext_eq h).2]
  exact mem_contacted_loop hsched m

/-! ### Cancellation -/

/-- No attempt asks the pool or a connection if the context is done at its top. -/
def StopsWhenDone (c : Dispatcher) (script : CancelScript) (req : ClientRequest) : Prop :=
  ∀ m, 0 < m → script.done m = true →
    ∀ n ≥ m, n ∉ contacted (c.doWithContext script.toCallEnv req).2.1

/-- A call that does not come to its loop asks nobody. -/
theorem contacted_of_error {req req' : ClientRequest} {err : GoErr}
    (h : c.prepare env req = (.error err, req')) : contacted (c.doWithContext env req).2.1 = [] := by
  unfold doWithContext
  rw [h]
  rfl

/-- A call stops when its context is done, exactly if it does not come to its loop or the wait
before every retry that begins with the context done takes time and ends with the context. -/
theorem cancellation_iff {script : CancelScript} {req : ClientRequest}
    (hsched : c.scheduler = false) :
    c.StopsWhenDone script req ↔
      ((c.prepare script.toCallEnv req).1.isOk = true →
        ∀ m, 0 < m → script.done m = true → c.Begins script.toCallEnv m →
          c.WaitNotices script.toCallEnv m) := by
  rcases hprepare : c.prepare script.toCallEnv req with ⟨err | target, req'⟩
  · refine ⟨fun _ hok => absurd hok (by simp [Except.isOk, Except.toBool]), fun _ => ?_⟩
    intro m _ _ n _
    rw [contacted_of_error hprepare]
    exact List.not_mem_nil
  constructor
  · intro hstops _ m hm hdone hbegins
    have hnot := hstops m hm hdone m le_rfl
    rw [mem_contacted_iff hsched hprepare] at hnot
    rw [← isSome_waitErr_iff hm]
    by_contra hwait
    exact hnot ⟨hbegins, Bool.eq_false_of_not_eq_true hwait⟩
  · intro hnotices m hm hdone n hn hmem
    -- an attempt that asks the pool has begun, and its wait has noticed nothing
    obtain ⟨hbegins, hwait⟩ := (mem_contacted_iff hsched hprepare n).mp hmem
    have hdone' : script.done n = true := Nat.le_induction hdone (fun k _ => script.done_mono k) n hn
    have hsome := (isSome_waitErr_iff (by omega)).mpr (hnotices rfl n (by omega) hdone' hbegins)
    rw [hwait] at hsome
    cases hsome

end Dispatcher

/-- The context is done when the first attempt has ended; every attempt ends as `answer`
says. -/
def cancelledScript (answer : Answer) : CancelScript where
  ctx := none
  limit := none
  attempts _ :=
    { rand := .fin 0
      date := fun _ => none
      select := some (.io 1)
      conn := true
      answer := answer
      ctxErr := .io 1 }
  done n := n != 0
  done_mono n _ := by simp

/-- Behind a 503 the client waits, and the wait ends with the context. -/
theorem cancellation_iff_unavailable :
    (plainClient 3 (by decide)).StopsWhenDone
      (cancelledScript (.ok { blankResponse with statusCode := 503 })) plainRequest := by
  refine (Dispatcher.cancellation_iff rfl).mpr fun _ m hm hdone hbegins => ?_
  have hfirst : (plainClient 3 (by decide)).goesOn
      (cancelledScript (.ok { blankResponse with statusCode := 503 })).toCallEnv 1 = false := by
    decide +kernel
  have hone : m = 1 := by
    by_contra hne
    rw [hbegins.2 1 (by omega)] at hfirst
    cases hfirst
  subst hone
  exact ⟨by decide +kernel, rfl⟩

/-- A client whose delays are as long as a `time.Duration` can be. -/
def longestDelays : Dispatcher :=
  { plainClient 2 (by decide) with
    retry := ⟨2, 2 ^ 63 - 1, 2 ^ 63 - 1, .fin 2, false, [503], by decide⟩ }

/-- The request is cancelled, and the pool is asked for more connections: behind a timeout, and
behind a 503 if the largest delay is `2 ^ 63 - 1`, since `float64` rounds it up and the conversion
back gives a negative number. -/
theorem cancellation_ignored :
    (Dispatcher.contacted ((plainClient 3 (by decide)).doWithContext
        (cancelledScript (.fail (wrapError .timeout "request cancelled" (.io 1)))).toCallEnv
        plainRequest).2.1 = [0, 0, 1, 1, 2, 2, 3, 3] ∧
      ¬ (plainClient 3 (by decide)).StopsWhenDone
        (cancelledScript (.fail (wrapError .timeout "request cancelled" (.io 1)))) plainRequest) ∧
    Dispatcher.contacted (longestDelays.doWithContext
        (cancelledScript (.ok { blankResponse with statusCode := 503 })).toCallEnv
        plainRequest).2.1 = [0, 0, 1, 1, 2, 2] := by
  have hlog : Dispatcher.contacted ((plainClient 3 (by decide)).doWithContext
      (cancelledScript (.fail (wrapError .timeout "request cancelled" (.io 1)))).toCallEnv
      plainRequest).2.1 = [0, 0, 1, 1, 2, 2, 3, 3] := by decide +kernel
  refine ⟨⟨hlog, fun hstops => hstops 1 (by omega) rfl 1 le_rfl ?_⟩, by decide +kernel⟩
  rw [hlog]
  decide

end BurstHttp
