/-
Where the calls on one request go (request.go, `WithURL`, `WithPath`, `resolveURL`;
client.go, `DoWithContext`).

A request keeps what was parsed of its URL.  `WithURL` drops the flag that it was parsed,
an assignment to `URL` does not, and neither drops the parsed fields: what they hold may
belong to an URL that the request had before.

* `RequestOp`, `ClientRequest.run` — a request and what its user does with it;
* `Resolved` — what the parsed fields can hold then;
* `Coherent` — what they hold belongs to the URL the request has;
* `follows_fields_iff` — the next call goes where the fields say, if and only if that is so;
* `rejected_then_sent` — a call that should have been rejected.
-/
import BurstHttp.RetryLoop

namespace BurstHttp

/-! ### The fields and the route -/

/-- `Path`, or `/`. -/
def Outgoing.ownPath (req : Outgoing) : Bytes := if req.path ≠ [] then req.path else ascii "/"

namespace ClientRequest

/-- `Request.WithURL`. -/
def withURL (r : ClientRequest) (url : Bytes) : ClientRequest :=
  { r with url := url, urlParsed := false }

/-- `Request.WithPath`. -/
def withPath (r : ClientRequest) (path : Bytes) : ClientRequest := { r with path := path }

/-- A new request: nothing has been parsed. -/
def new (out : Outgoing) (url : Bytes) : ClientRequest :=
  { out with
    parsedPath := []
    url := url
    urlParsed := false
    parsedHost := []
    parsedPort := 0
    parsedTLS := false }

/-- Where a call on the request should go: nowhere, if there is a URL that cannot be resolved. -/
def route (c : Dispatcher) (r : ClientRequest) : Option Route :=
  if r.url = [] then some ⟨c.target, r.ownPath⟩ else resolve c.parse r.url

end ClientRequest

/-- A call of the pool, a connection or the scheduler is for `route`. -/
def Call.RoutedTo (route : Route) : Call → Prop
  | .getConnection _ target => target = route.target
  | .connDo _ path => path = route.path
  | .schedule _ r => r = route
  | _ => True

namespace Dispatcher

/-- The call is rejected because of its URL, before anything is sent. -/
def Rejects (c : Dispatcher) (env : CallEnv) (r : ClientRequest) : Prop :=
  (c.doWithContext env r).1 = (none, some (badURL r.url)) ∧ (c.doWithContext env r).2.1 = []

/-- The call follows the fields of the request: it is rejected if these give no route, and
otherwise all its attempts go to that route, and there is a first one if there is any. -/
def Follows (c : Dispatcher) (env : CallEnv) (r : ClientRequest) : Prop :=
  match r.route c with
  | none => c.Rejects env r
  | some route =>
    ¬ c.Rejects env r ∧ (∀ call ∈ (c.doWithContext env r).2.1, call.RoutedTo route) ∧
      (0 < c.maxAttempts → c.scheduler = true ∧ .schedule 0 route ∈ (c.doWithContext env r).2.1 ∨
        c.scheduler = false ∧ .getConnection 0 route.target ∈ (c.doWithContext env r).2.1)

end Dispatcher

/-- What the user of a request does with it; `url.Parse` is the same in all its calls. -/
inductive RequestOp (parse : Bytes → Option URL)
  | assignURL (url : Bytes)
  | withURL (url : Bytes)
  | assignPath (path : Bytes)
  | withPath (path : Bytes)
  | call (c : Dispatcher) (h : c.parse = parse) (env : CallEnv)

namespace ClientRequest

variable {parse : Bytes → Option URL}

def step (r : ClientRequest) : RequestOp parse → ClientRequest
  | .assignURL url => { r with url := url }
  | .withURL url => r.withURL url
  | .assignPath path => { r with path := path }
  | .withPath path => r.withPath path
  | .call c _ env => (c.doWithContext env r).2.2

def run (r : ClientRequest) (ops : List (RequestOp parse)) : ClientRequest := ops.foldl step r

variable (parse) in
/-- The next call follows the fields, whatever client makes it, unless its context is done or
its rate limiter fails. -/
def FollowsFields (r : ClientRequest) : Prop :=
  ∀ (c : Dispatcher) (env : CallEnv), c.parse = parse → env.ctx = none →
    (c.limiter = true → env.limit = none) → c.Follows env r

variable (parse) in
/-- What has been parsed belongs to the URL.  Without a URL there is no parsed path, or it is
the path of the request. -/
def Coherent (r : ClientRequest) : Prop :=
  if r.url = [] then r.parsedPath = [] ∨ r.parsedPath = r.ownPath
  else r.urlParsed = true → r.cached = resolve parse r.url

variable (parse) in
/-- The parsed fields are all empty, or those of some URL. -/
def Resolved (r : ClientRequest) : Prop :=
  r.parsedHost = [] ∧ r.parsedPath = [] ∨ ∃ url, (resolve parse url).isSome = true ∧
    r.cached = resolve parse url

end ClientRequest

/-! ### Resolving -/

/-- A route that comes from a URL has a host and a path. -/
theorem resolve_ne_nil {parse : Bytes → Option URL} {url : Bytes} {route : Route}
    (h : resolve parse url = some route) : route.target.host ≠ [] ∧ route.path ≠ [] := by
  unfold resolve at h
  split at h
  · cases h
  split at h
  · cases h
  dsimp only at h
  split at h
  · cases h
  split at h
  · cases h
  rename_i hhost
  obtain rfl := Option.some.inj h
  refine ⟨hhost, ?_⟩
  dsimp only
  split
  · decide
  · assumption

namespace ClientRequest

variable {parse : Bytes → Option URL} {r : ClientRequest}

theorem effectivePath_of_parsed (h : r.parsedPath ≠ []) : r.effectivePath = r.parsedPath := by
  rw [Outgoing.effectivePath, if_pos h]

theorem effectivePath_of_not_parsed (h : r.parsedPath = []) : r.effectivePath = r.ownPath := by
  rw [Outgoing.effectivePath, if_neg (by simp [h]), Outgoing.ownPath]

/-- What is cached has the host and the path of the fields. -/
theorem cached_eq_some {route : Route} (h : r.cached = some route) :
    r.parsedHost = route.target.host ∧ r.parsedPath = route.path := by
  unfold cached at h
  split at h
  · cases h
  · obtain rfl := Option.some.inj h
    exact ⟨rfl, rfl⟩

/-- A request that has a cached route has its path as well. -/
theorem Resolved.path_ne_nil (hr : r.Resolved parse) {route : Route} (h : r.cached = some route) :
    route.path ≠ [] := by
  rcases hr with ⟨hhost, -⟩ | ⟨url, -, hcached⟩
  · rw [cached, if_pos hhost] at h
    cases h
  · exact (resolve_ne_nil (hcached ▸ h)).2

theorem Resolved.parsed (hr : r.Resolved parse) (b : Bool) :
    { r with urlParsed := b }.Resolved parse := hr

theorem Resolved.resolveURL (hr : r.Resolved parse) : (r.resolveURL parse).2.Resolved parse := by
  unfold ClientRequest.resolveURL
  split
  · exact hr
  split
  · exact hr
  · rename_i route hroute
    refine .inr ⟨r.url, by rw [hroute]; rfl, ?_⟩
    rw [hroute, cached, if_neg (resolve_ne_nil hroute).1]

theorem Resolved.refreshed {c : Dispatcher} (hr : r.Resolved c.parse) :
    (c.refreshed r).Resolved c.parse := by
  unfold Dispatcher.refreshed
  split
  · exact hr.parsed false
  · exact (hr.parsed false).resolveURL

/-- What `resolveURL` returns has been cached. -/
theorem cached_resolveURL {route : Route} (h : (r.resolveURL parse).1 = some route) :
    (r.resolveURL parse).2.cached = some route := by
  unfold ClientRequest.resolveURL at h ⊢
  split at h
  · rename_i hparsed
    rw [if_pos hparsed]
    exact h
  · rename_i hparsed
    rw [if_neg hparsed]
    cases hroute : resolve parse r.url with
    | none =>
      rw [hroute] at h
      cases h
    | some route' =>
      rw [hroute] at h
      obtain rfl := Option.some.inj h
      dsimp only
      rw [cached, if_neg (resolve_ne_nil hroute).1]

end ClientRequest

namespace Dispatcher

variable {c : Dispatcher} {env : CallEnv} {r : ClientRequest}

theorem prepare_resolved (env : CallEnv) (hr : r.Resolved c.parse) :
    (c.prepare env r).2.Resolved c.parse := by
  unfold prepare
  split
  · exact hr
  split
  · exact hr
  split
  · exact hr
  have hresolved := hr.resolveURL
  rcases hresolve : r.resolveURL c.parse with ⟨_ | route, r'⟩
  · rw [hresolve] at hresolved
    exact hresolved
  · rw [hresolve] at hresolved
    -- the path that is stored is the one that was cached
    have hpath : r'.parsedPath = route.path := by
      have hfst : (r.resolveURL c.parse).1 = some route := by rw [hresolve]
      have hcached := ClientRequest.cached_resolveURL hfst
      rw [hresolve] at hcached
      exact (ClientRequest.cached_eq_some hcached).2
    dsimp only
    rw [← hpath]
    exact hresolved

theorem doWithContext_resolved (hr : r.Resolved c.parse) :
    (c.doWithContext env r).2.2.Resolved c.parse := by
  have hprepared := prepare_resolved env hr
  unfold doWithContext
  rcases hprepare : c.prepare env r with ⟨err | target, r'⟩
  · rw [hprepare] at hprepared
    exact hprepared
  · rw [hprepare] at hprepared
    exact loop_invariant (P := fun _ req => req.Resolved c.parse) (fun _ _ _ h => h)
      (fun _ _ h => h.refreshed) (fun _ _ _ h => h) hprepared

/-! ### The calls of an attempt -/

theorem routedTo_of_not_sends {call : Call} (h : call.sends = false) (route : Route) :
    call.RoutedTo route := by
  cases call with
  | getConnection n target => cases h
  | connDo n path => cases h
  | schedule n r => cases h
  | _ => trivial

/-- An attempt goes to the target of the call, with the path that the request has then. -/
theorem routedTo_attemptCalls (env : AttemptEnv) (n : ℕ) (req : ClientRequest) {route : Route}
    (hpath : req.effectivePath = route.path) :
    ∀ call ∈ c.attemptCalls env route.target n req, call.RoutedTo route := by
  intro call hcall
  cases hsends : call.sends with
  | false => exact routedTo_of_not_sends hsends route
  | true =>
    rw [mem_attemptCalls hsends, hpath, sendCalls] at hcall
    split_ifs at hcall
    · obtain rfl := List.mem_singleton.mp hcall
      rfl
    · rcases List.mem_cons.mp hcall with rfl | hcall
      · rfl
      · obtain rfl := List.mem_singleton.mp hcall
        rfl
    · obtain rfl := List.mem_singleton.mp hcall
      rfl

/-- A retry looks at the URL again, and finds the same path. -/
theorem refreshed_path {route : Route} (hurl : r.url ≠ [] → resolve c.parse r.url = some route)
    (hpath : r.effectivePath = route.path) :
    (c.refreshed r).url = r.url ∧ (c.refreshed r).effectivePath = route.path := by
  unfold refreshed
  split
  · exact ⟨rfl, hpath⟩
  · rename_i hne
    have hroute := hurl hne
    rw [ClientRequest.resolveURL, if_neg (by simp), hroute]
    refine ⟨rfl, ?_⟩
    rw [ClientRequest.effectivePath_of_parsed (by exact (resolve_ne_nil hroute).2)]

theorem loop_routed {route : Route} {k : ℕ}
    (hurl : r.url ≠ [] → resolve c.parse r.url = some route)
    (hpath : r.effectivePath = route.path) :
    ∀ call ∈ (c.loop env route.target k 0 ⟨r, none, .none, []⟩).2.log, call.RoutedTo route := by
  -- kept by the loop: the URL, the path it will ask for, and where it has gone so far
  refine (loop_invariant (P := fun log req => req.url = r.url ∧ req.effectivePath = route.path ∧
    ∀ call ∈ log, call.RoutedTo route) ?_ ?_ ?_
      ⟨rfl, hpath, fun call h => absurd h List.not_mem_nil⟩).2.2
  · rintro n log req ⟨hu, hp, hlog⟩
    refine ⟨hu, hp, List.forall_mem_append.mpr ⟨hlog, fun call hcall => ?_⟩⟩
    rw [eq_of_mem_retryCalls hcall]
    trivial
  · rintro log req ⟨hu, hp, hlog⟩
    obtain ⟨hu', hp'⟩ := refreshed_path (c := c) (by rw [hu]; exact hurl) hp
    exact ⟨hu'.trans hu, hp', hlog⟩
  · rintro n log req ⟨hu, hp, hlog⟩
    exact ⟨hu, hp, List.forall_mem_append.mpr ⟨hlog, routedTo_attemptCalls _ n req hp⟩⟩

/-- A call that comes to its loop makes its first attempt. -/
theorem mem_log_of_first {target : Pool.Target} {r' : ClientRequest}
    (h : c.prepare env r = (.ok target, r')) (hmax : 0 < c.maxAttempts) :
    ∀ call ∈ c.attemptCalls (env.attempts 0) target 0 r',
      call ∈ (c.doWithContext env r).2.1 := by
  intro call hcall
  rw [(doWithContext_eq h).2]
  obtain ⟨k, hk⟩ : ∃ k, c.maxAttempts.toNat = k + 1 := ⟨c.maxAttempts.toNat - 1, by omega⟩
  have hlog : (c.attempt (env.attempts 0) target 0 ⟨r', none, .none, []⟩).2.log
      = c.attemptCalls (env.attempts 0) target 0 r' :=
    (attempt_settled target 0 ⟨r', none, .none, []⟩).log
  have hbefore (s : LoopState) : c.beforeRetry (env.attempts 0) 0 s = (none, s) := rfl
  rw [hk, loop, hbefore]
  dsimp only
  rw [← hlog] at hcall
  rcases hx : c.attempt (env.attempts 0) target 0 ⟨r', none, .none, []⟩ with ⟨_ | ret, s⟩
  · rw [hx] at hcall
    exact loop_invariant (P := fun log _ => call ∈ log)
      (fun _ _ _ h => List.mem_append_left _ h) (fun _ _ h => h)
      (fun _ _ _ h => List.mem_append_left _ h) hcall
  · rw [hx] at hcall
    exact hcall

/-! ### Rejection -/

theorem rejects_of_error {r' : ClientRequest} (h : c.prepare env r = (.error (badURL r.url), r')) :
    c.Rejects env r := by
  unfold Rejects doWithContext
  rw [h]
  exact ⟨rfl, rfl⟩

/-- A call that comes to its loop is not rejected. -/
theorem not_rejects_of_ok {target : Pool.Target} {r' : ClientRequest}
    (h : c.prepare env r = (.ok target, r')) : ¬ c.Rejects env r := by
  rintro ⟨hret, hlog⟩
  by_cases hmax : c.retry.maxRetries = 2 ^ 63 - 1
  · rw [(doWithContext_wraps h hmax).1] at hret
    simp [badURL, wrapError] at hret
  · have hfirst := mem_log_of_first h (by rw [maxAttempts_eq hmax]; omega) (.acquire 0)
      (by simp [attemptCalls])
    rw [hlog] at hfirst
    cases hfirst

section Prelude

/-! What `DoWithContext` does before its loop, if neither the context nor the rate limiter stops
it. -/

variable (hctx : env.ctx = none) (hlimit : c.limiter = true → env.limit = none)

include hlimit in
theorem limit_eq_none : (if c.limiter then env.limit else none) = none := by
  split
  · exact hlimit (by assumption)
  · rfl

include hctx hlimit

theorem prepare_of_nil (hurl : r.url = []) : c.prepare env r = (.ok c.target, r) := by
  simp only [prepare, hctx, limit_eq_none hlimit, hurl, if_pos]

theorem prepare_of_none {r' : ClientRequest} (hurl : r.url ≠ [])
    (h : r.resolveURL c.parse = (none, r')) :
    c.prepare env r = (.error (badURL r'.url), r') := by
  simp only [prepare, hctx, limit_eq_none hlimit, if_neg hurl, h]

theorem prepare_of_some {route : Route} {r' : ClientRequest} (hurl : r.url ≠ [])
    (h : r.resolveURL c.parse = (some route, r')) :
    c.prepare env r = (.ok route.target, { r' with parsedPath := route.path }) := by
  simp only [prepare, hctx, limit_eq_none hlimit, if_neg hurl, h]

end Prelude

/-! ### Coherent requests -/

theorem resolveURL_url (parse : Bytes → Option URL) (r : ClientRequest) :
    (r.resolveURL parse).2.url = r.url := by
  unfold ClientRequest.resolveURL
  split
  · rfl
  · split <;> rfl

/-- `resolveURL` of a coherent request that has a URL. -/
theorem resolveURL_of_coherent (hcoherent : r.Coherent c.parse) (hurl : r.url ≠ []) :
    (r.resolveURL c.parse).1 = resolve c.parse r.url := by
  rw [ClientRequest.Coherent, if_neg hurl] at hcoherent
  unfold ClientRequest.resolveURL
  split
  · rename_i hparsed
    exact hcoherent hparsed
  · cases resolve c.parse r.url <;> rfl

/-- A coherent request is rejected, or comes to the loop with its route. -/
theorem prepare_of_coherent (hcoherent : r.Coherent c.parse) (hctx : env.ctx = none)
    (hlimit : c.limiter = true → env.limit = none) :
    match r.route c with
    | none => ∃ r', c.prepare env r = (.error (badURL r.url), r')
    | some route => ∃ r', c.prepare env r = (.ok route.target, r') ∧ r'.url = r.url ∧
        r'.effectivePath = route.path := by
  rw [ClientRequest.route]
  by_cases hurl : r.url = []
  · rw [if_pos hurl]
    refine ⟨r, prepare_of_nil hctx hlimit hurl, rfl, ?_⟩
    rw [ClientRequest.Coherent, if_pos hurl] at hcoherent
    dsimp only
    by_cases hparsed : r.parsedPath = []
    · exact ClientRequest.effectivePath_of_not_parsed hparsed
    · rw [ClientRequest.effectivePath_of_parsed hparsed]
      exact hcoherent.resolve_left hparsed
  · rw [if_neg hurl, ← resolveURL_of_coherent hcoherent hurl]
    have hsame := resolveURL_url c.parse r
    have hroute := resolveURL_of_coherent hcoherent hurl
    rcases hresolve : r.resolveURL c.parse with ⟨_ | route, r'⟩
    · rw [hresolve] at hsame
      exact ⟨r', by rw [prepare_of_none hctx hlimit hurl hresolve, hsame]⟩
    · rw [hresolve] at hsame hroute
      refine ⟨_, prepare_of_some hctx hlimit hurl hresolve, hsame, ?_⟩
      rw [ClientRequest.effectivePath_of_parsed (by exact (resolve_ne_nil hroute.symm).2)]

/-- A call on a coherent request follows its fields. -/
theorem follows_of_coherent (hcoherent : r.Coherent c.parse) (hctx : env.ctx = none)
    (hlimit : c.limiter = true → env.limit = none) : c.Follows env r := by
  have hprepare := prepare_of_coherent hcoherent hctx hlimit
  unfold Follows
  cases hroute : r.route c with
  | none =>
    rw [hroute] at hprepare
    obtain ⟨r', hprepare⟩ := hprepare
    exact rejects_of_error hprepare
  | some route =>
    rw [hroute] at hprepare
    obtain ⟨r', hprepare, hurl, hpath⟩ := hprepare
    refine ⟨not_rejects_of_ok hprepare, ?_, fun hmax => ?_⟩
    · rw [(doWithContext_eq hprepare).2]
      refine loop_routed (fun hne => ?_) hpath
      rw [hurl] at hne ⊢
      rw [ClientRequest.route, if_neg hne] at hroute
      exact hroute
    · have hfirst := mem_log_of_first hprepare hmax
      cases hsched : c.scheduler with
      | true =>
        refine .inl ⟨rfl, hfirst _ ((mem_attemptCalls rfl).mpr ?_)⟩
        simp [sendCalls, hsched, hpath]
      | false =>
        refine .inr ⟨rfl, hfirst _ ((mem_attemptCalls rfl).mpr ?_)⟩
        simp [sendCalls, hsched]

end Dispatcher

/-! ### Runs -/

namespace ClientRequest

variable {parse : Bytes → Option URL}

theorem new_resolved (out : Outgoing) (url : Bytes) : (new out url).Resolved parse :=
  .inl ⟨rfl, rfl⟩

theorem step_resolved {r : ClientRequest} (hr : r.Resolved parse) (op : RequestOp parse) :
    (r.step op).Resolved parse := by
  cases op with
  | assignURL url => exact hr
  | withURL url => exact hr
  | assignPath path => exact hr
  | withPath path => exact hr
  | call c h env =>
    change (c.doWithContext env r).2.2.Resolved parse
    rw [← h] at hr ⊢
    exact Dispatcher.doWithContext_resolved hr

theorem run_resolved {r : ClientRequest} (hr : r.Resolved parse) (ops : List (RequestOp parse)) :
    (r.run ops).Resolved parse := by
  induction ops generalizing r with
  | nil => exact hr
  | cons op ops ih => exact ih (step_resolved hr op)

/-- A client that shows where a request goes: one attempt, no scheduler. -/
def probe (parse : Bytes → Option URL) : Dispatcher :=
  { plainClient 0 (by decide) with parse := parse }

/-- A request that is not coherent makes a call of this client go astray. -/
theorem coherent_of_probe {r : ClientRequest} (hr : r.Resolved parse)
    (h : (probe parse).Follows resetTwice r) : r.Coherent parse := by
  -- the first attempt shows the target and the path
  have hfirst : ∀ target r', (probe parse).prepare resetTwice r = (.ok target, r') →
      .getConnection 0 target ∈ ((probe parse).doWithContext resetTwice r).2.1 ∧
        .connDo 0 r'.effectivePath ∈ ((probe parse).doWithContext resetTwice r).2.1 := by
    intro target r' hok
    have hone : (probe parse).maxAttempts = 1 := rfl
    have hmem := Dispatcher.mem_log_of_first hok (by rw [hone]; decide)
    refine ⟨hmem _ ((Dispatcher.mem_attemptCalls rfl).mpr ?_),
      hmem _ ((Dispatcher.mem_attemptCalls rfl).mpr ?_)⟩
    · exact List.mem_cons_self
    · exact List.mem_cons_of_mem _ List.mem_cons_self
  unfold Dispatcher.Follows route at h
  unfold Coherent
  by_cases hurl : r.url = []
  · rw [if_pos hurl] at h ⊢
    have hprepare : (probe parse).prepare resetTwice r = _ :=
      Dispatcher.prepare_of_nil rfl (fun _ => rfl) hurl
    by_cases hparsed : r.parsedPath = []
    · exact .inl hparsed
    · right
      have hpath := h.2.1 _ (hfirst _ _ hprepare).2
      rw [effectivePath_of_parsed hparsed] at hpath
      exact hpath
  · rw [if_neg hurl] at h ⊢
    intro hparsed
    -- the URL is not looked at again
    have hresolve : r.resolveURL (probe parse).parse = (r.cached, r) := by
      rw [resolveURL, if_pos hparsed]
    have hparse : (probe parse).parse = parse := rfl
    rw [hparse] at h
    cases hcached : r.cached with
    | none =>
      rw [hcached] at hresolve
      have hprepare : (probe parse).prepare resetTwice r = _ :=
        Dispatcher.prepare_of_none rfl (fun _ => rfl) hurl hresolve
      cases hroute : resolve parse r.url with
      | none => rfl
      | some route =>
        rw [hroute] at h
        exact absurd (Dispatcher.rejects_of_error hprepare) h.1
    | some old =>
      rw [hcached] at hresolve
      have hprepare : (probe parse).prepare resetTwice r = _ :=
        Dispatcher.prepare_of_some rfl (fun _ => rfl) hurl hresolve
      obtain ⟨htarget, hpath⟩ := hfirst _ _ hprepare
      rw [effectivePath_of_parsed (by exact hr.path_ne_nil hcached)] at hpath
      cases hroute : resolve parse r.url with
      | none =>
        rw [hroute] at h
        exact absurd h (Dispatcher.not_rejects_of_ok hprepare)
      | some route =>
        rw [hroute] at h
        have htarget' : old.target = route.target := h.2.1 _ htarget
        have hpath' : old.path = route.path := h.2.1 _ hpath
        cases old
        cases route
        simp_all

/-- After any assignments and calls, the next call follows the fields of the request, if and
only if what has been parsed belongs to the URL. -/
theorem follows_fields_iff (out : Outgoing) (url : Bytes) (ops : List (RequestOp parse)) :
    ((new out url).run ops).FollowsFields parse ↔ ((new out url).run ops).Coherent parse := by
  constructor
  · intro h
    exact coherent_of_probe (run_resolved (new_resolved out url) ops)
      (h (probe parse) resetTwice rfl rfl fun _ => rfl)
  · rintro hcoherent c env rfl hctx hlimit
    exact Dispatcher.follows_of_coherent hcoherent hctx hlimit

/-- `url.Parse`, as far as the next runs need it; the third URL they use has no closing
bracket. -/
def parseHosts (url : Bytes) : Option URL :=
  if url = ascii "http://a.example/x" then some ⟨ascii "http", ascii "a.example", [], ascii "/x"⟩
  else if url = ascii "http://b.example/y" then
    some ⟨ascii "http", ascii "b.example", [], ascii "/y"⟩
  else none

def probeCall : RequestOp parseHosts := .call (probe parseHosts) rfl resetTwice

/-- A request that has been sent to its URL. -/
def sentToA : ClientRequest := (new (getPath (ascii "/")) (ascii "http://a.example/x")).step probeCall

/-- A call with a URL that cannot be parsed is rejected; the next one is sent to the host of the
URL before. -/
theorem rejected_then_sent :
    (sentToA.run [.withURL (ascii "http://[::1"), probeCall]).route (probe parseHosts) = none ∧
      ((probe parseHosts).doWithContext resetTwice
          (sentToA.run [.withURL (ascii "http://[::1"), probeCall])).2.1
        = [.acquire 0, .getConnection 0 ⟨false, ascii "a.example", 80⟩, .connDo 0 (ascii "/x"),
          .release 0] ∧
      ¬ (sentToA.run [.withURL (ascii "http://[::1"), probeCall]).FollowsFields parseHosts := by
  have hroute : (sentToA.run [.withURL (ascii "http://[::1"), probeCall]).route (probe parseHosts)
      = none := by decide +kernel
  have hlog : ((probe parseHosts).doWithContext resetTwice
      (sentToA.run [.withURL (ascii "http://[::1"), probeCall])).2.1
      = [.acquire 0, .getConnection 0 ⟨false, ascii "a.example", 80⟩, .connDo 0 (ascii "/x"),
        .release 0] := by decide +kernel
  refine ⟨hroute, hlog, fun h => ?_⟩
  have hfollows := h (probe parseHosts) resetTwice rfl rfl fun _ => rfl
  rw [Dispatcher.Follows, hroute] at hfollows
  have hempty := hfollows.2
  rw [hlog] at hempty
  cases hempty

-- an assignment to `URL` does not drop the flag, and the target stays that of the first call
example : .getConnection 0 ⟨false, ascii "a.example", 80⟩ ∈ ((probe parseHosts).doWithContext
    resetTwice { sentToA with url := ascii "http://b.example/y" }).2.1 := by decide +kernel

-- without a URL the target is that of the client, and the path that of the old URL
example : .connDo 0 (ascii "/x") ∈ ((probe parseHosts).doWithContext
    resetTwice (sentToA.withURL [])).2.1 := by decide +kernel

end ClientRequest

end BurstHttp
