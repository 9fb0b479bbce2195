import Mathlib.Data.List.Basic
import FlashSale.Lib.Runs
/-!
# Fetching in a component

`useAsyncData` (apps/web/src/hooks): a hook that fetches again whenever its
fetcher or its reload token changes. The state is set in the render, when an
attempt starts, and from the callbacks of its promise. A render and its effect
are one step; so are the callbacks of one promise. A result is not a function,
which `setData` would call.
-/

namespace FlashSale
open Lib.Runs

/-! ## `asApiError` -/

structure ApiError where
  /-- 0 when the request never reached the server. -/
  status : Int
  message : String
  details : List String
deriving DecidableEq

def UNEXPECTED_ERROR_MESSAGE : String := "Something went wrong. Please try again."

/-- What a promise rejects with. -/
inductive Cause (κ : Type*) where
  | apiError (error : ApiError)
  | other (cause : κ)
deriving DecidableEq

def asApiError {κ : Type*} : Cause κ → ApiError
  | .apiError error => error
  | .other _ => ⟨0, UNEXPECTED_ERROR_MESSAGE, []⟩

/-! ## The hook -/

inductive Outcome (τ κ : Type*) where
  | resolved (result : τ)
  | rejected (cause : Cause κ)
deriving DecidableEq

/-- A call of a fetcher, and the signal it was given. -/
structure FetchAttempt (φ τ κ : Type*) where
  fetcher : φ
  aborted : Bool
  /-- What its callback was run with. -/
  outcome : Option (Outcome τ κ)
deriving DecidableEq

/-- The variables of `useAsyncData`, and what React keeps for its effect. A
fetcher is known by its identity. -/
structure UseAsyncData (φ τ : Type*) where
  /-- The fetcher of the last render. -/
  fetcher : Option φ
  data : Option τ
  error : Option ApiError
  isLoading : Bool
  reloadToken : Nat
  prevAttempt : Option φ × Nat
  /-- What the effect last ran for. -/
  deps : Option φ × Nat
  /-- The attempt that its cleanup aborts. -/
  controller : Option Nat
deriving DecidableEq

/-- The hook, while its component is mounted, and all attempts it started. -/
structure AsyncPage (φ τ κ : Type*) where
  hook : Option (UseAsyncData φ τ)
  attempts : List (FetchAttempt φ τ κ)
deriving DecidableEq

inductive AsyncAction (φ τ κ : Type*) where
  | mount (fetcher : Option φ)
  | render (fetcher : Option φ)
  | refetch
  /-- The callback of attempt `i` runs. -/
  | settles (i : Nat) (outcome : Outcome τ κ)
  | unmount

section
variable {φ τ κ : Type*}

/-- The state of the first render. -/
def useAsyncData (fetcher : Option φ) : UseAsyncData φ τ where
  fetcher := fetcher
  data := none
  error := none
  isLoading := fetcher.isSome
  reloadToken := 0
  prevAttempt := (fetcher, 0)
  deps := (fetcher, 0)
  controller := none

/-- A render: the state is set at once when there is something new to fetch. -/
def UseAsyncData.renders [DecidableEq φ] (hook : UseAsyncData φ τ) (fetcher : Option φ) : UseAsyncData φ τ :=
  if hook.prevAttempt = (fetcher, hook.reloadToken) then { hook with fetcher := fetcher }
  else
    match fetcher with
    | some f => { hook with
        fetcher := some f, prevAttempt := (some f, hook.reloadToken), isLoading := true, error := none }
    | none => { hook with
        fetcher := none, prevAttempt := (none, hook.reloadToken), isLoading := false, data := none, error := none }

/-- The callbacks, past their check of the signal. -/
def UseAsyncData.settles (hook : UseAsyncData φ τ) : Outcome τ κ → UseAsyncData φ τ
  | .resolved result => { hook with data := some result, isLoading := false }
  | .rejected cause => { hook with error := some (asApiError cause), isLoading := false }

def FetchAttempt.abort (a : FetchAttempt φ τ κ) : FetchAttempt φ τ κ := { a with aborted := true }

/-- The cleanup of the effect. -/
def UseAsyncData.cleanup (hook : UseAsyncData φ τ) (attempts : List (FetchAttempt φ τ κ)) :
    List (FetchAttempt φ τ κ) :=
  match hook.controller with
  | some i => attempts.modify i FetchAttempt.abort
  | none => attempts

/-- The effect. -/
def UseAsyncData.effect (hook : UseAsyncData φ τ) (attempts : List (FetchAttempt φ τ κ)) : AsyncPage φ τ κ :=
  match hook.fetcher with
  | some f => ⟨some { hook with controller := some attempts.length }, attempts ++ [⟨f, false, none⟩]⟩
  | none => ⟨some { hook with controller := none }, attempts⟩

namespace AsyncPage

def start : AsyncPage φ τ κ := ⟨none, []⟩

/-- A render of a mounted hook, with its effect if that has to run again. -/
def renders [DecidableEq φ] (s : AsyncPage φ τ κ) (hook : UseAsyncData φ τ) (fetcher : Option φ) :
    AsyncPage φ τ κ :=
  let hook' := hook.renders fetcher
  if hook'.deps = (hook'.fetcher, hook'.reloadToken) then { s with hook := some hook' }
  else UseAsyncData.effect { hook' with deps := (hook'.fetcher, hook'.reloadToken) } (hook.cleanup s.attempts)

def step [DecidableEq φ] (s : AsyncPage φ τ κ) : AsyncAction φ τ κ → Option (AsyncPage φ τ κ)
  | .mount fetcher => if s.hook.isNone then some ((useAsyncData fetcher).effect s.attempts) else none
  | .render fetcher => s.hook.map fun hook => s.renders hook fetcher
  | .refetch => s.hook.map fun hook => { s with hook := some { hook with reloadToken := hook.reloadToken + 1 } }
  | .settles i outcome =>
    match s.attempts[i]? with
    | some a =>
      if a.outcome = none then
        some {
          hook := if a.aborted then s.hook else s.hook.map (·.settles outcome)
          attempts := s.attempts.set i { a with outcome := some outcome } }
      else none
    | none => none
  | .unmount => s.hook.map fun hook => ⟨none, hook.cleanup s.attempts⟩

end AsyncPage

/-- What is shown is what the latest attempt came to. -/
structure UseAsyncData.Current (hook : UseAsyncData φ τ) (attempts : List (FetchAttempt φ τ κ)) : Prop where
  latest : ∀ f, hook.fetcher = some f → ∃ a, attempts.getLast? = some a ∧ a.fetcher = f
  isLoading : hook.isLoading = true ↔
    hook.fetcher ≠ none ∧ ∃ a, attempts.getLast? = some a ∧ a.outcome = none
  resolved : hook.fetcher ≠ none → ∀ a result, attempts.getLast? = some a → a.outcome = some (.resolved result) →
    hook.error = none ∧ hook.data = some result
  rejected : hook.fetcher ≠ none → ∀ a cause, attempts.getLast? = some a → a.outcome = some (.rejected cause) →
    match cause with
    | .apiError error => hook.error = some error
    | .other _ => hook.error = some ⟨0, UNEXPECTED_ERROR_MESSAGE, []⟩
  idle : hook.fetcher = none → hook.data = none ∧ hook.error = none

/-! ## The invariant -/

/-- What is shown for an attempt that came to `outcome`, or is under way. -/
def UseAsyncData.Shows (hook : UseAsyncData φ τ) : Option (Outcome τ κ) → Prop
  | none => hook.isLoading = true ∧ hook.error = none
  | some (.resolved result) => hook.isLoading = false ∧ hook.error = none ∧ hook.data = some result
  | some (.rejected cause) => hook.isLoading = false ∧ hook.error = some (asApiError cause)

/-- The effect ran for the last render. -/
structure UseAsyncData.Rendered (hook : UseAsyncData φ τ) : Prop where
  deps : hook.deps = hook.prevAttempt
  fetcher : hook.prevAttempt.1 = hook.fetcher

structure UseAsyncData.Idle (hook : UseAsyncData φ τ) : Prop extends hook.Rendered where
  fetcher_none : hook.fetcher = none
  controller : hook.controller = none
  isLoading : hook.isLoading = false
  data : hook.data = none
  error : hook.error = none

/-- The hook fetches, or has fetched: attempt number `n`, which is `a`. -/
structure UseAsyncData.Fetches (hook : UseAsyncData φ τ) (n : Nat) (a : FetchAttempt φ τ κ) : Prop
    extends hook.Rendered where
  fetcher_some : hook.fetcher = some a.fetcher
  controller : hook.controller = some n
  aborted : a.aborted = false
  shows : hook.Shows a.outcome

def AllAborted (attempts : List (FetchAttempt φ τ κ)) : Prop := ∀ a ∈ attempts, a.aborted = true

/-- At most the last attempt is not aborted, and the hook shows what it came
to. -/
inductive AsyncPage.Good : AsyncPage φ τ κ → Prop
  | unmounted {attempts} : AllAborted attempts → Good ⟨none, attempts⟩
  | idle {hook attempts} : AllAborted attempts → hook.Idle → Good ⟨some hook, attempts⟩
  | fetches {hook earlier a} : AllAborted earlier → hook.Fetches earlier.length a → Good ⟨some hook, earlier ++ [a]⟩

variable {hook : UseAsyncData φ τ} {attempts earlier : List (FetchAttempt φ τ κ)} {a : FetchAttempt φ τ κ}

theorem AllAborted.set (h : AllAborted attempts) {i : Nat} (ha : attempts[i]? = some a)
    (outcome : Option (Outcome τ κ)) : AllAborted (attempts.set i { a with outcome := outcome }) := by
  intro b hb
  rcases List.mem_or_eq_of_mem_set hb with hb | rfl
  · exact h b hb
  · exact h a (List.mem_of_getElem? ha)

/-- After its cleanup nothing that a hook started is left. -/
theorem UseAsyncData.Fetches.cleanup (h : hook.Fetches earlier.length a) (hearlier : AllAborted earlier) :
    AllAborted (hook.cleanup (earlier ++ [a])) := by
  unfold UseAsyncData.cleanup
  rw [h.controller]
  intro b hb
  obtain ⟨k, hk⟩ := List.mem_iff_getElem?.1 hb
  rw [List.getElem?_modify] at hk
  obtain ⟨c, hc, rfl⟩ := Option.map_eq_some_iff.1 hk
  split
  · rfl
  · rename_i hne
    refine hearlier c (List.mem_of_getElem? (i := k) ?_)
    have hlt : k < earlier.length := by
      have := (List.getElem?_eq_some_iff.1 hc).1
      simp only [List.length_append, List.length_singleton] at this
      omega
    rwa [List.getElem?_append_left hlt] at hc

theorem UseAsyncData.Idle.cleanup (h : hook.Idle) (hearlier : AllAborted attempts) :
    AllAborted (hook.cleanup attempts) := by
  unfold UseAsyncData.cleanup
  rw [h.controller]
  exact hearlier

/-- The effect of a render that has something new starts the one attempt. -/
theorem UseAsyncData.Rendered.effect (h : hook.Rendered) (hattempts : AllAborted attempts)
    (hidle : hook.fetcher = none → hook.isLoading = false ∧ hook.data = none ∧ hook.error = none)
    (hfetches : hook.fetcher ≠ none → hook.isLoading = true ∧ hook.error = none) : (hook.effect attempts).Good := by
  unfold UseAsyncData.effect
  cases hf : hook.fetcher with
  | none =>
    obtain ⟨h₁, h₂, h₃⟩ := hidle hf
    exact .idle hattempts ⟨⟨h.deps, h.fetcher.trans hf⟩, rfl, rfl, h₁, h₂, h₃⟩
  | some f =>
    have hshows := hfetches (by simp [hf])
    exact .fetches hattempts ⟨⟨h.deps, h.fetcher.trans hf⟩, rfl, rfl, rfl, hshows⟩

namespace AsyncPage

theorem start_good : (start : AsyncPage φ τ κ).Good := .unmounted fun _ h => by cases h

variable [DecidableEq φ] {s s' : AsyncPage φ τ κ} {action : AsyncAction φ τ κ}

/-- A render with nothing new changes nothing. -/
theorem renders_same (hrendered : hook.Rendered) {fetcher : Option φ}
    (hsame : hook.prevAttempt = (fetcher, hook.reloadToken)) :
    (⟨some hook, attempts⟩ : AsyncPage φ τ κ).renders hook fetcher = ⟨some hook, attempts⟩ := by
  have hfetcher : fetcher = hook.fetcher := by rw [← hrendered.fetcher, hsame]
  subst hfetcher
  have hhook : hook.renders hook.fetcher = hook := if_pos hsame
  unfold renders
  simp only [hhook]
  rw [if_pos (hrendered.deps.trans hsame)]

/-- A render with something new starts over. -/
theorem renders_new (hrendered : hook.Rendered) (hcleanup : AllAborted (hook.cleanup attempts)) {fetcher : Option φ}
    (hnew : hook.prevAttempt ≠ (fetcher, hook.reloadToken)) :
    ((⟨some hook, attempts⟩ : AsyncPage φ τ κ).renders hook fetcher).Good := by
  have hdeps : hook.deps ≠ (fetcher, hook.reloadToken) := hrendered.deps ▸ hnew
  cases fetcher with
  | none =>
    simp only [renders, UseAsyncData.renders, hnew, hdeps, if_false]
    exact UseAsyncData.Rendered.effect ⟨rfl, rfl⟩ hcleanup (fun _ => ⟨rfl, rfl, rfl⟩) fun h => absurd rfl h
  | some f =>
    simp only [renders, UseAsyncData.renders, hnew, hdeps, if_false]
    exact UseAsyncData.Rendered.effect ⟨rfl, rfl⟩ hcleanup (fun h => by cases h) fun _ => ⟨rfl, rfl⟩

/-- The callback of an aborted attempt leaves the hook alone. -/
theorem settles_aborted {i : Nat} {outcome : Outcome τ κ} (ha : s.attempts[i]? = some a) (haborted : a.aborted = true)
    (hstep : s.step (.settles i outcome) = some s') :
    s' = ⟨s.hook, s.attempts.set i { a with outcome := some outcome }⟩ := by
  simp only [AsyncPage.step, ha] at hstep
  rw [if_pos haborted] at hstep
  split at hstep
  · exact (Option.some.inj hstep).symm
  · cases hstep

/-- The callback of the latest attempt shows its outcome. -/
theorem settles_latest (h : hook.Fetches earlier.length a) {outcome : Outcome τ κ}
    (hstep : (⟨some hook, earlier ++ [a]⟩ : AsyncPage φ τ κ).step (.settles earlier.length outcome) = some s') :
    s' = ⟨some (hook.settles outcome), earlier ++ [{ a with outcome := some outcome }]⟩ ∧ a.outcome = none := by
  simp only [AsyncPage.step, List.getElem?_concat_length] at hstep
  split at hstep
  · rename_i hnone
    rw [if_neg (by simp [h.aborted])] at hstep
    refine ⟨(Option.some.inj hstep).symm.trans ?_, hnone⟩
    simp
  · cases hstep

omit [DecidableEq φ] in
theorem settles_fetches (h : hook.Fetches earlier.length a) (hnone : a.outcome = none) (outcome : Outcome τ κ) :
    (hook.settles outcome).Fetches earlier.length { a with outcome := some outcome } := by
  have hshows := h.shows
  rw [hnone] at hshows
  cases outcome with
  | resolved result => exact ⟨⟨h.deps, h.fetcher⟩, h.fetcher_some, h.controller, h.aborted, rfl, hshows.2, rfl⟩
  | rejected cause => exact ⟨⟨h.deps, h.fetcher⟩, h.fetcher_some, h.controller, h.aborted, rfl, rfl⟩

/-- The callback of an earlier attempt leaves the hook alone. -/
theorem Good.settles (h : s.Good) {i : Nat} {outcome : Outcome τ κ} (hstep : s.step (.settles i outcome) = some s') :
    s'.Good ∧ (i + 1 < s.attempts.length ∨ s.hook.bind (·.fetcher) = none → s'.hook = s.hook) := by
  have ha : ∃ a, s.attempts[i]? = some a := by
    simp only [AsyncPage.step] at hstep
    split at hstep
    · exact ⟨_, by assumption⟩
    · cases hstep
  obtain ⟨b, hb⟩ := ha
  cases h with
  | unmounted hattempts =>
    obtain rfl := settles_aborted hb (hattempts b (List.mem_of_getElem? hb)) hstep
    exact ⟨.unmounted (hattempts.set hb _), fun _ => rfl⟩
  | idle hattempts hidle =>
    obtain rfl := settles_aborted hb (hattempts b (List.mem_of_getElem? hb)) hstep
    exact ⟨.idle (hattempts.set hb _) hidle, fun _ => rfl⟩
  | @fetches hook earlier a hearlier hfetches =>
    have hlt := (List.getElem?_eq_some_iff.1 hb).1
    simp only [List.length_append, List.length_singleton] at hlt
    rcases Nat.lt_succ_iff_lt_or_eq.1 hlt with hlt | rfl
    · have hb' : earlier[i]? = some b := by rwa [List.getElem?_append_left hlt] at hb
      obtain rfl := settles_aborted hb (hearlier b (List.mem_of_getElem? hb')) hstep
      refine ⟨?_, fun _ => rfl⟩
      simp only [List.set_append_left _ _ hlt]
      refine .fetches (hearlier.set hb' _) ?_
      rw [List.length_set]
      exact hfetches
    · -- It is the latest attempt, and the hook's own.
      obtain ⟨rfl, hnone⟩ := settles_latest hfetches hstep
      refine ⟨.fetches hearlier (settles_fetches hfetches hnone outcome), ?_⟩
      rintro (hlt | hno)
      · simp at hlt
      · have hfetcher : hook.fetcher = none := hno
        rw [hfetches.fetcher_some] at hfetcher
        cases hfetcher

theorem Good.step (h : s.Good) (hstep : s.step action = some s') : s'.Good := by
  cases action with
  | mount fetcher =>
    simp only [AsyncPage.step] at hstep
    split at hstep
    · rename_i hnone
      obtain rfl := Option.some.inj hstep
      cases h with
      | unmounted hattempts =>
        refine UseAsyncData.Rendered.effect ⟨rfl, rfl⟩ hattempts (fun hf => ?_) fun hf => ?_
        · exact ⟨by simp [useAsyncData, show fetcher = none from hf], rfl, rfl⟩
        · exact ⟨Option.isSome_iff_ne_none.2 hf, rfl⟩
      | _ => cases hnone
    · cases hstep
  | render fetcher =>
    obtain ⟨hook, hhook, rfl⟩ := Option.map_eq_some_iff.1 hstep
    by_cases hsame : hook.prevAttempt = (fetcher, hook.reloadToken)
    · cases h with
      | unmounted => cases hhook
      | idle hattempts hidle =>
        obtain rfl := Option.some.inj hhook
        rw [renders_same hidle.toRendered hsame]
        exact .idle hattempts hidle
      | fetches hearlier hfetches =>
        obtain rfl := Option.some.inj hhook
        rw [renders_same hfetches.toRendered hsame]
        exact .fetches hearlier hfetches
    · cases h with
      | unmounted => cases hhook
      | idle hattempts hidle =>
        obtain rfl := Option.some.inj hhook
        exact renders_new hidle.toRendered (hidle.cleanup hattempts) hsame
      | fetches hearlier hfetches =>
        obtain rfl := Option.some.inj hhook
        exact renders_new hfetches.toRendered (hfetches.cleanup hearlier) hsame
  | refetch =>
    obtain ⟨hook, hhook, rfl⟩ := Option.map_eq_some_iff.1 hstep
    cases h with
    | unmounted => cases hhook
    | idle hattempts hidle =>
      obtain rfl := Option.some.inj hhook
      exact .idle hattempts { hidle with }
    | fetches hearlier hfetches =>
      obtain rfl := Option.some.inj hhook
      exact .fetches hearlier { hfetches with }
  | settles i outcome => exact (h.settles hstep).1
  | unmount =>
    obtain ⟨hook, hhook, rfl⟩ := Option.map_eq_some_iff.1 hstep
    cases h with
    | unmounted => cases hhook
    | idle hattempts hidle =>
      obtain rfl := Option.some.inj hhook
      exact .unmounted (hidle.cleanup hattempts)
    | fetches hearlier hfetches =>
      obtain rfl := Option.some.inj hhook
      exact .unmounted (hfetches.cleanup hearlier)

omit [DecidableEq φ] in
/-- What the invariant says of what is shown. -/
theorem Good.current (h : (⟨some hook, attempts⟩ : AsyncPage φ τ κ).Good) : hook.Current attempts := by
  cases h with
  | idle hattempts hidle =>
    refine ⟨fun f hf => ?_, ?_, fun hne => absurd hidle.fetcher_none hne, fun hne => absurd hidle.fetcher_none hne,
      fun _ => ⟨hidle.data, hidle.error⟩⟩
    · rw [hidle.fetcher_none] at hf
      cases hf
    · rw [hidle.isLoading]
      constructor
      · intro hloading
        cases hloading
      · exact fun hloading => absurd hidle.fetcher_none hloading.1
  | @fetches hook earlier a hearlier hfetches =>
    have hlast : (earlier ++ [a]).getLast? = some a := List.getLast?_concat
    have hsome : hook.fetcher ≠ none := by simp [hfetches.fetcher_some]
    have hshows := hfetches.shows
    refine ⟨fun f hf => ?_, ?_, fun _ b result hb houtcome => ?_, fun _ b cause hb houtcome => ?_,
      fun hnone => absurd hnone hsome⟩
    · exact ⟨a, hlast, Option.some.inj (hfetches.fetcher_some.symm.trans hf)⟩
    · constructor
      · intro hloading
        refine ⟨hsome, a, hlast, ?_⟩
        cases houtcome : a.outcome with
        | none => rfl
        | some outcome =>
          rw [houtcome] at hshows
          cases outcome with
          | _ => exact absurd hloading (by simp [hshows.1])
      · rintro ⟨-, b, hb, hnone⟩
        obtain rfl := Option.some.inj (hlast.symm.trans hb)
        rw [hnone] at hshows
        exact hshows.1
    · obtain rfl := Option.some.inj (hlast.symm.trans hb)
      rw [houtcome] at hshows
      exact hshows.2
    · obtain rfl := Option.some.inj (hlast.symm.trans hb)
      rw [houtcome] at hshows
      cases cause with
      | _ => exact hshows.2

end AsyncPage

/-- Whatever is rendered, fetched again or settled, and in whatever order, the
hook shows what its latest attempt came to, and no earlier one changes it. -/
theorem useAsyncData_current [DecidableEq φ] {s : AsyncPage φ τ κ}
    (h : Steps AsyncPage.step (fun _ _ => True) .start s) :
    (∀ hook, s.hook = some hook → hook.Current s.attempts) ∧
      ∀ i outcome s', s.step (.settles i outcome) = some s' →
        i + 1 < s.attempts.length ∨ s.hook.bind (·.fetcher) = none → s'.hook = s.hook := by
  have hgood : s.Good := h.inv AsyncPage.start_good fun _ _ _ hI _ hstep => hI.step hstep
  refine ⟨fun hook hhook => AsyncPage.Good.current ?_, fun i outcome s' hstep => (hgood.settles hstep).2⟩
  rw [← hhook]
  exact hgood

end

/-- A fetcher is switched while its fetch is under way. The new one's is
rejected first, and what the old one comes to changes nothing. Fetched again, it
resolves. -/
theorem useAsyncData_current_switched :
    let notFound : ApiError := ⟨404, "Sale not found", []⟩
    (∃ s : AsyncPage Nat String String, ∃ hook, s.hook = some hook ∧ hook.data = none ∧ hook.error = some notFound ∧
      s.attempts.map (·.outcome) = [some (.resolved "old"), some (.rejected (.apiError notFound))] ∧
      hook.Current s.attempts) ∧
    ∃ s : AsyncPage Nat String String, ∃ hook, s.hook = some hook ∧ hook.data = some "new" ∧ hook.error = none ∧
      s.attempts.map (·.outcome) =
        [some (.resolved "old"), some (.rejected (.apiError notFound)), some (.resolved "new")] ∧
      hook.Current s.attempts := by
  intro notFound
  let switched : List (AsyncAction Nat String String) :=
    [.mount (some 1), .render (some 2), .settles 1 (.rejected (.apiError notFound)), .settles 0 (.resolved "old")]
  constructor
  · have hrun : ∃ s : AsyncPage Nat String String, Steps AsyncPage.step (fun _ _ => True) .start s ∧
        s.hook.map (fun hook => (hook.data, hook.error)) = some (none, some notFound) ∧
          s.attempts.map (·.outcome) = [some (.resolved "old"), some (.rejected (.apiError notFound))] :=
      Steps.exists_of_run switched (by decide +kernel)
    obtain ⟨s, h, hshown, houtcomes⟩ := hrun
    obtain ⟨hook, hhook, hshown⟩ := Option.map_eq_some_iff.1 hshown
    obtain ⟨hdata, herror⟩ := Prod.mk.inj hshown
    exact ⟨s, hook, hhook, hdata, herror, houtcomes, (useAsyncData_current h).1 hook hhook⟩
  · have hrun : ∃ s : AsyncPage Nat String String, Steps AsyncPage.step (fun _ _ => True) .start s ∧
        s.hook.map (fun hook => (hook.data, hook.error)) = some (some "new", none) ∧
          s.attempts.map (·.outcome) =
            [some (.resolved "old"), some (.rejected (.apiError notFound)), some (.resolved "new")] :=
      Steps.exists_of_run (switched ++ [.refetch, .render (some 2), .settles 2 (.resolved "new")])
        (by decide +kernel)
    obtain ⟨s, h, hshown, houtcomes⟩ := hrun
    obtain ⟨hook, hhook, hshown⟩ := Option.map_eq_some_iff.1 hshown
    obtain ⟨hdata, herror⟩ := Prod.mk.inj hshown
    exact ⟨s, hook, hhook, hdata, herror, houtcomes, (useAsyncData_current h).1 hook hhook⟩

end FlashSale
