import Rtt.RegistryPagination

/-!
The page loop against a provider whose upstream slices a fixed list of events.  A
page is followed by another one only where the list goes on, so the pages run out
with the list, however many markets its events have and whichever calls fail.
-/

namespace Rtt.PageTermination

open Rtt.MachineWord (wrappingAdd)
open Rtt.RegistryProvider
open Rtt.Registry
open Rtt.RegistryPagination

/-- A provider that numbers the fetch calls of a refresh. -/
abbrev Serving := Nat → RegistryPageRequest → Answer

def nextOffset : Answer → Option Nat
  | .ok page => page.nextOffset
  | .error _ => none

theorem nextOffset_eq_some {answer : Answer} {offset : Nat} (h : nextOffset answer = some offset) :
    ∃ page, answer = .ok page ∧ page.nextOffset = some offset := by
  cases answer with
  | error err => exact absurd h (by simp [nextOffset])
  | ok page => exact ⟨page, rfl, h⟩

/-- The answers to a page request, with so many retries left. -/
def pageAnswers (serve : Serving) (request : RegistryPageRequest) : Nat → Nat → List Answer
  | 0, call => [serve call request]
  | left + 1, call =>
      match serve call request with
      | .ok page => [.ok page]
      | .error err =>
          if err.isRetryable then .error err :: pageAnswers serve request left (call + 1)
          else [.error err]

/-- The answers to the calls of a refresh, from an offset on and for at most as many
pages as the bound says. -/
def refreshAnswers (policy : RegistryRefreshPolicy) (serve : Serving) :
    Nat → Nat → Nat → List Answer
  | 0, _, _ => []
  | bound + 1, offset, call =>
      let answers := pageAnswers serve { offset, limit := policy.pageSize }
        policy.retryPolicy.maxRetries call
      answers ++ match answers.getLast?.bind nextOffset with
        | none => []
        | some offset => refreshAnswers policy serve bound offset (call + answers.length)

/-- The calls of a refresh and what each of them was answered. -/
def answeredCalls (collection : Collection) : List (RegistryPageRequest × Answer) :=
  collection.fetches.flatMap fun fetch => fetch.answers.map fun answer => (fetch.request, answer)

/-- The calls were answered by the provider, one after another. -/
def ServedFrom (serve : Serving) : Nat → List (RegistryPageRequest × Answer) → Prop
  | _, [] => True
  | call, (request, answer) :: calls =>
      answer = serve call request ∧ ServedFrom serve (call + 1) calls

section Serving

variable {serve : Serving} {request : RegistryPageRequest} {call : Nat}

theorem servedFrom_append {first second : List (RegistryPageRequest × Answer)}
    (hfirst : ServedFrom serve call first)
    (hsecond : ServedFrom serve (call + first.length) second) :
    ServedFrom serve call (first ++ second) := by
  induction first generalizing call with
  | nil => exact hsecond
  | cons entry first ih =>
      refine ⟨hfirst.1, ih hfirst.2 ?_⟩
      rw [Nat.add_assoc, Nat.add_comm 1]
      exact hsecond

theorem servedFrom_mem {calls : List (RegistryPageRequest × Answer)} {answer : Answer}
    (h : ServedFrom serve call calls) (hmem : (request, answer) ∈ calls) :
    ∃ call, answer = serve call request := by
  induction calls generalizing call with
  | nil => exact absurd hmem List.not_mem_nil
  | cons entry calls ih =>
      rcases List.mem_cons.mp hmem with rfl | hlater
      · exact ⟨call, h.1⟩
      · exact ih h.2 hlater

theorem servedFrom_pageAnswers (left : Nat) :
    ServedFrom serve call
      ((pageAnswers serve request left call).map fun answer => (request, answer)) := by
  induction left generalizing call with
  | zero => exact ⟨rfl, trivial⟩
  | succ left ih =>
      rw [pageAnswers]
      split
      · rename_i page hanswer
        exact ⟨hanswer.symm, trivial⟩
      · rename_i err hanswer
        split
        · exact ⟨hanswer.symm, ih⟩
        · exact ⟨hanswer.symm, trivial⟩

theorem exists_fetch {policy : RetryPolicy} {left retries : Nat}
    (hleft : retries + left = policy.maxRetries) (attempts : Nat) :
    ∃ fetch, ∀ rest, fetchPageWithRetry policy request retries attempts
      (pageAnswers serve request left call ++ rest) = some (fetch, rest) := by
  induction left generalizing retries attempts call with
  | zero =>
      rw [pageAnswers]
      cases serve call request with
      | ok page => exact ⟨_, fun _ => rfl⟩
      | error err =>
          have hspent : ¬ (err.isRetryable && decide (retries < policy.maxRetries)) = true := by
            rw [Bool.and_eq_true, decide_eq_true_eq]
            omega
          exact ⟨_, fun _ => if_neg hspent⟩
  | succ left ih =>
      rw [pageAnswers]
      cases serve call request with
      | ok page => exact ⟨_, fun _ => rfl⟩
      | error err =>
          by_cases hretry : err.isRetryable = true
          · obtain ⟨fetch, hfetch⟩ :=
              @ih (call + 1) (retries + 1) (by omega) (wrappingAdd attempts 1)
            have hagain : (err.isRetryable && decide (retries < policy.maxRetries)) = true := by
              rw [Bool.and_eq_true, decide_eq_true_eq]
              exact ⟨hretry, by omega⟩
            simp only [hretry, if_true, List.cons_append]
            refine ⟨{ fetch with
                answers := .error err :: fetch.answers
                delays := policy.backoffForRetry retries :: fetch.delays }, fun rest => ?_⟩
            rw [fetchPageWithRetry, if_pos hagain, hfetch]
            rfl
          · have hfinal : ¬ (err.isRetryable && decide (retries < policy.maxRetries)) = true := by
              rw [Bool.and_eq_true, not_and_or]
              exact Or.inl hretry
            simp only [hretry, Bool.false_eq_true, if_false]
            exact ⟨_, fun _ => if_neg hfinal⟩

end Serving

section Pages

variable {policy : RegistryRefreshPolicy} {collecting : Collecting} {attempts : Nat}
  {script rest : List Answer} {fetch : PageFetch}

/-- A page request of the loop, with the answers of the provider to it. -/
structure PageRead (policy : RegistryRefreshPolicy) (serve : Serving) (offset call attempts : Nat)
    (fetch : PageFetch) : Prop where
  read : ∀ rest, fetchPageWithRetry policy.retryPolicy { offset, limit := policy.pageSize } 0
    attempts (fetch.answers ++ rest) = some (fetch, rest)
  served : ServedFrom serve call (fetch.answers.map fun answer => (fetch.request, answer))
  answered : fetch.answers ≠ []
  ended : ∃ call, fetch.result = serve call { offset, limit := policy.pageSize }
  script : ∀ bound, refreshAnswers policy serve (bound + 1) offset call =
    fetch.answers ++ match nextOffset fetch.result with
      | none => []
      | some next => refreshAnswers policy serve bound next (call + fetch.answers.length)

theorem exists_pageRead (policy : RegistryRefreshPolicy) (serve : Serving)
    (offset call attempts : Nat) : ∃ fetch, PageRead policy serve offset call attempts fetch := by
  obtain ⟨fetch, hfetch⟩ := @exists_fetch serve { offset, limit := policy.pageSize } call
    policy.retryPolicy policy.retryPolicy.maxRetries 0 (Nat.zero_add _) attempts
  have hspec := fetchPageWithRetry_spec (hfetch [])
  have hanswers : pageAnswers serve { offset, limit := policy.pageSize }
      policy.retryPolicy.maxRetries call = fetch.answers :=
    List.append_cancel_right hspec.read
  obtain ⟨failed, hfailed, -⟩ := hspec.retried
  have hlast : fetch.answers.getLast? = some fetch.result := by
    rw [hfailed, List.getLast?_concat]
  have hserved : ServedFrom serve call
      (fetch.answers.map fun answer => (fetch.request, answer)) := by
    rw [hspec.request_eq, ← hanswers]
    exact servedFrom_pageAnswers _
  refine ⟨fetch, ?_, hserved, ?_, ?_, ?_⟩
  · rw [← hanswers]
    exact hfetch
  · exact List.ne_nil_of_mem (List.mem_of_getLast? hlast)
  · rw [← hspec.request_eq]
    exact servedFrom_mem hserved (List.mem_map_of_mem (List.mem_of_getLast? hlast))
  · intro bound
    rw [refreshAnswers, hanswers, hlast, Option.bind_some]

theorem collectPages_last
    (hfetch : fetchPageWithRetry policy.retryPolicy
      { offset := collecting.offset, limit := policy.pageSize } 0 attempts script =
        some (fetch, rest)) (hlast : nextOffset fetch.result = none) (reach : Nat) :
    collectPages policy (reach + 1) collecting attempts script =
      some { fetches := [fetch], result := fetch.result.map collecting.addPage
             attempts := fetch.attempts } := by
  rw [collectPages, hfetch]
  cases hresult : fetch.result with
  | error err => simp [hresult, Except.map]
  | ok page =>
      rw [hresult] at hlast
      have hnone : page.nextOffset = none := hlast
      simp [hresult, hnone, Except.map]

theorem collectPages_next {page : RegistryPage} {offset : Nat}
    (hfetch : fetchPageWithRetry policy.retryPolicy
      { offset := collecting.offset, limit := policy.pageSize } 0 attempts script =
        some (fetch, rest)) (hpage : fetch.result = .ok page)
    (hnext : page.nextOffset = some offset) (reach : Nat) :
    collectPages policy (reach + 1) collecting attempts script =
      (collectPages policy reach { collecting.addPage page with offset } fetch.attempts rest).map
        fun collection => { collection with fetches := fetch :: collection.fetches } := by
  rw [collectPages, hfetch]
  simp [hpage, hnext]

/-- The page loop ends with so many pages and one more at most. -/
structure Ends (policy : RegistryRefreshPolicy) (serve : Serving) (collecting : Collecting)
    (call attempts pages : Nat) (collection : Collection) : Prop where
  collects : ∀ bound ≥ pages, ∀ reach,
    let script := refreshAnswers policy serve (bound + 1) collecting.offset call
    script.length ≤ reach → collectPages policy reach collecting attempts script = some collection
  served : ServedFrom serve call (answeredCalls collection)
  pages_le : collection.fetches.length ≤ pages + 1

variable {serve : Serving} {call : Nat}

theorem PageRead.ends (h : PageRead policy serve collecting.offset call attempts fetch)
    (hlast : nextOffset fetch.result = none) (pages : Nat) :
    Ends policy serve collecting call attempts pages
      { fetches := [fetch], result := fetch.result.map collecting.addPage
        attempts := fetch.attempts } := by
  have hlength := List.length_pos_of_ne_nil h.answered
  have hscript := h.script
  simp only [hlast] at hscript
  constructor
  · intro bound _ reach script hreach
    simp only [script, hscript, List.length_append] at hreach ⊢
    obtain ⟨reach, rfl⟩ := Nat.exists_eq_add_one_of_ne_zero (by omega : reach ≠ 0)
    exact collectPages_last (h.read []) hlast reach
  · rw [answeredCalls, List.flatMap_singleton]
    exact h.served
  · simp

theorem Ends.cons {page : RegistryPage} {offset pages : Nat} {later : Collection}
    (hread : PageRead policy serve collecting.offset call attempts fetch)
    (hpage : fetch.result = .ok page) (hnext : page.nextOffset = some offset)
    (h : Ends policy serve { collecting.addPage page with offset } (call + fetch.answers.length)
      fetch.attempts pages later) :
    Ends policy serve collecting call attempts (pages + 1)
      { later with fetches := fetch :: later.fetches } := by
  have hlength := List.length_pos_of_ne_nil hread.answered
  have hscript := hread.script
  simp only [hpage, nextOffset, hnext] at hscript
  constructor
  · intro bound hbound reach script hreach
    obtain ⟨bound, rfl⟩ := Nat.exists_eq_add_one_of_ne_zero (by omega : bound ≠ 0)
    simp only [script, hscript, List.length_append] at hreach ⊢
    obtain ⟨reach, rfl⟩ := Nat.exists_eq_add_one_of_ne_zero (by omega : reach ≠ 0)
    have hshorter : ∀ count, fetch.answers.length + count ≤ reach + 1 → count ≤ reach := by
      intro count hcount
      omega
    rw [collectPages_next (hread.read _) hpage hnext,
      h.collects bound (by omega) reach (hshorter _ hreach)]
    rfl
  · refine servedFrom_append hread.served ?_
    rw [List.length_map]
    exact h.served
  · exact Nat.succ_le_succ h.pages_le

end Pages

/-- An upstream that serves the slices of a fixed list of events.  Its replies may
change from call to call and may fail; one with a success status carries the slice. -/
structure SlicedUpstream (json : SerdeJson) where
  events : List GammaEvent
  reply : Nat → RegistryPageRequest → Reply
  slices : ∀ {call request status body}, reply call request = .answered status body →
    status.isSuccess = true →
      json.events body = .ok ((events.drop request.offset).take request.limit)

section Upstream

variable {json : SerdeJson} (upstream : SlicedUpstream json) (providerName : String)

def SlicedUpstream.serve : Serving := fun call request =>
  fetchPage json providerName request (upstream.reply call request)

theorem fetchPage_ok {request : RegistryPageRequest} {reply : Reply} {page : RegistryPage}
    (h : fetchPage json providerName request reply = .ok page) :
    ∃ status body, reply = .answered status body ∧ status.isSuccess = true ∧
      parsePage json providerName body request = .ok page := by
  cases reply with
  | requestFailed err => exact absurd h (by simp [fetchPage])
  | bodyFailed err => exact absurd h (by simp [fetchPage])
  | answered status body =>
      rw [fetchPage] at h
      split at h
      · exact absurd h (by simp)
      · split at h
        · exact absurd h (by simp)
        · rename_i hsuccess
          rw [Bool.not_eq_true', Bool.not_eq_false] at hsuccess
          exact ⟨status, body, rfl, hsuccess, h⟩

theorem nextOffset_parsePage {request : RegistryPageRequest} {body : String}
    {events : List GammaEvent} {page : RegistryPage} {offset : Nat}
    (hevents : json.events body = .ok events)
    (hpage : parsePage json providerName body request = .ok page)
    (hnext : page.nextOffset = some offset) :
    offset = request.offset + request.limit ∧ request.limit ≠ 0 ∧
      request.limit ≤ (pageRecords events).length := by
  rw [parsePage, hevents] at hpage
  obtain rfl := Except.ok.inj hpage
  simp only [length_markets_add_quarantined] at hnext
  split at hnext
  · exact absurd hnext (by simp)
  · rename_i hfull
    rw [not_or, Nat.not_lt] at hfull
    exact ⟨(Option.some.inj hnext).symm, hfull.1, hfull.2⟩

theorem SlicedUpstream.nextOffset_serve {call offset : Nat} {request : RegistryPageRequest}
    (h : nextOffset (upstream.serve providerName call request) = some offset) :
    offset = request.offset + request.limit ∧ request.limit ≠ 0 ∧
      request.offset < upstream.events.length := by
  cases hanswer : upstream.serve providerName call request with
  | error err =>
      rw [hanswer] at h
      exact absurd h (by simp [nextOffset])
  | ok page =>
      rw [hanswer] at h
      obtain ⟨status, body, hreply, hsuccess, hpage⟩ := fetchPage_ok providerName hanswer
      have hslice := upstream.slices hreply hsuccess
      obtain ⟨hoffset, hlimit, hfull⟩ := nextOffset_parsePage providerName hslice hpage h
      refine ⟨hoffset, hlimit, ?_⟩
      by_contra hbeyond
      rw [List.drop_eq_nil_of_le (Nat.le_of_not_lt hbeyond), List.take_nil] at hfull
      exact hlimit (Nat.le_zero.mp hfull)

theorem SlicedUpstream.exists_ends (policy : RegistryRefreshPolicy) (pages : Nat)
    (collecting : Collecting) (call attempts : Nat)
    (hcover : policy.pageSize = 0 ∨
      upstream.events.length ≤ collecting.offset + pages * policy.pageSize) :
    ∃ collection,
      Ends policy (upstream.serve providerName) collecting call attempts pages collection := by
  induction pages using Nat.strong_induction_on generalizing collecting call attempts with
  | _ pages ih =>
      obtain ⟨fetch, hread⟩ :=
        exists_pageRead policy (upstream.serve providerName) collecting.offset call attempts
      cases hnext : nextOffset fetch.result with
      | none => exact ⟨_, hread.ends hnext pages⟩
      | some offset =>
          obtain ⟨page, hpage, hoffset⟩ := nextOffset_eq_some hnext
          obtain ⟨ended, hended⟩ := hread.ended
          rw [hended] at hnext
          obtain ⟨rfl, hlimit, hinside⟩ : offset = collecting.offset + policy.pageSize ∧
              policy.pageSize ≠ 0 ∧ collecting.offset < upstream.events.length :=
            upstream.nextOffset_serve providerName hnext
          obtain ⟨pages, rfl⟩ : ∃ fewer, pages = fewer + 1 := by
            refine Nat.exists_eq_add_one_of_ne_zero ?_
            rintro rfl
            rw [Nat.zero_mul] at hcover
            omega
          have hrest : policy.pageSize = 0 ∨ upstream.events.length ≤
              collecting.offset + policy.pageSize + pages * policy.pageSize := by
            rw [Nat.succ_mul] at hcover
            omega
          obtain ⟨later, hlater⟩ := ih pages (Nat.lt_succ_self pages)
            { collecting.addPage page with offset := collecting.offset + policy.pageSize }
            (call + fetch.answers.length) fetch.attempts hrest
          exact ⟨_, hlater.cons hread hpage hoffset⟩

theorem SlicedUpstream.exists_collect (policy : RegistryRefreshPolicy) {pages : Nat}
    (hcover : policy.pageSize = 0 ∨ upstream.events.length ≤ pages * policy.pageSize) :
    ∃ collection,
      (∀ bound > pages, collect policy
        (refreshAnswers policy (upstream.serve providerName) bound 0 0) = some collection) ∧
      ServedFrom (upstream.serve providerName) 0 (answeredCalls collection) ∧
      collection.fetches.length ≤ pages + 1 := by
  obtain ⟨collection, hends⟩ := upstream.exists_ends providerName policy pages .empty 0 0
    (by rwa [Collecting.empty, Nat.zero_add])
  refine ⟨collection, ?_, hends.served, hends.pages_le⟩
  intro bound hbound
  obtain ⟨bound, rfl⟩ := Nat.exists_eq_add_one_of_ne_zero (by omega : bound ≠ 0)
  exact hends.collects bound (by omega) _ (Nat.le_refl _)

end Upstream

/-- A refresh ends for every list of events, whichever of its calls fail.  It reads one
page more than cover the list at most. -/
theorem pagination_ends (registry : MarketRegistry) {json : SerdeJson}
    (upstream : SlicedUpstream json) (state : RegistryState) (nowMs : Nat) :
    let policy := registry.refreshPolicy
    let serve := upstream.serve registry.providerName
    ∃ collection,
      (∀ bound > upstream.events.length,
        collect policy (refreshAnswers policy serve bound 0 0) = some collection ∧
        registry.collectSnapshot state (refreshAnswers policy serve bound 0 0) nowMs =
          some (registry.endCollection state collection nowMs)) ∧
      ServedFrom serve 0 (answeredCalls collection) ∧
      ∀ pages, upstream.events.length ≤ pages * policy.pageSize →
        collection.fetches.length ≤ pages + 1 := by
  intro policy serve
  have hcover : policy.pageSize = 0 ∨
      upstream.events.length ≤ upstream.events.length * policy.pageSize := by
    rcases Nat.eq_zero_or_pos policy.pageSize with hzero | hpos
    · exact Or.inl hzero
    · exact Or.inr (Nat.le_mul_of_pos_right _ hpos)
  obtain ⟨collection, hcollect, hcalls, -⟩ :=
    upstream.exists_collect registry.providerName policy hcover
  refine ⟨collection, ?_, hcalls, ?_⟩
  · intro bound hbound
    refine ⟨hcollect bound hbound, ?_⟩
    rw [MarketRegistry.collectSnapshot, hcollect bound hbound]
    rfl
  · intro pages hpages
    obtain ⟨same, hsame, -, hlength⟩ :=
      upstream.exists_collect registry.providerName policy (Or.inr hpages)
    have hbound := hsame (max pages upstream.events.length + 1) (by omega)
    rw [hcollect _ (by omega)] at hbound
    rw [Option.some.inj hbound]
    exact hlength

/-- The sample upstream, busy at the first call. -/
def busyUpstream : SlicedUpstream sampleJson :=
  { events := sampleUpstream.events
    reply := fun call request =>
      if call = 0 then .answered { code := 429, printed := "429 Too Many Requests" } ""
      else .answered okStatus (sampleUpstream.body request)
    slices := by
      intro call request status body hreply hsuccess
      split at hreply
      · obtain ⟨rfl, -⟩ := Reply.answered.inj hreply
        exact absurd hsuccess (by decide)
      · obtain ⟨-, rfl⟩ := Reply.answered.inj hreply
        exact sampleUpstream.serves request }

example :
    (refreshAnswers (fixtureRegistry 1).refreshPolicy (busyUpstream.serve "fixture-registry") 3 0
      0).length = 2 := by
  decide +kernel

end Rtt.PageTermination
