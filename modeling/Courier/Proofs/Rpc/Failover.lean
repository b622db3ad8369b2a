import Courier.Proofs.Rpc.Execution
import Courier.Proofs.Rpc.Rotation
import Mathlib.Data.List.Rotate

/-!
# Failing over

Each attempt of a call that is admitted looks its service up once, and calls the endpoint that
comes first. So as long as nobody else looks anything up, whatever others do to the breakers, the
call gets the answers that lookups give in a row. Those of a directory begin with one endpoint
after the other, so that a call which is admitted often enough tries them all.

The main statement is `failsOver_of_listed`.
-/

namespace Courier
namespace Rpc

variable {α δ : Type}

/-!
## Lookups in a row
-/

namespace Resolve

def stateAfter (resolve : Resolve δ) (service : String) (lookups : δ) : Nat → δ
  | 0 => lookups
  | k + 1 => (resolve (stateAfter resolve service lookups k) service).2

/-- What a service is answered when it was looked up so many times before. -/
def answer (resolve : Resolve δ) (service : String) (lookups : δ) (k : Nat) : Lookup :=
  (resolve (stateAfter resolve service lookups k) service).1

theorem resolve_stateAfter (resolve : Resolve δ) (service : String) (lookups : δ) (k : Nat) :
    resolve (resolve.stateAfter service lookups k) service =
      (resolve.answer service lookups k, resolve.stateAfter service lookups (k + 1)) :=
  rfl

end Resolve

def Lookup.endpoint? (service : String) (lookup : Lookup) : Option Endpoint :=
  (Call.endpointOf service lookup.found).toOption

namespace Call

/-!
## A call among others
-/

def awaited? (c : Call α) : Option Lookup :=
  match c.stage with
  | .looking _ _ lookup => some lookup
  | _ => none

/-- A call under way, with the lookups of its admitted attempts in order. -/
structure Passage (δ α : Type) where
  now : Nat
  shared : Shared δ
  call : Call α := {}
  lookups : List Lookup := []

inductive Turn where
  | own
  /-- Time passes, and others leave the breakers in some state; none of them looks anything up. -/
  | others (ms : Nat) (breakers : Breakers)

namespace Passage

def begun (now : Nat) (breakers : Breakers) (lookups : δ) : Passage δ α where
  now := now
  shared := ⟨breakers, lookups⟩

/-- The call has come so far; a lookup that it has begun to wait for is its latest one. -/
def movedTo (p : Passage δ α) (call : Call α) (shared : Shared δ) : Passage δ α :=
  { p with shared := shared, call := call, lookups := p.lookups ++ call.awaited?.toList }

variable (rules : CallRules) (resolve : Resolve δ) (plan : Nat → Endpoint → Reply α)

def step (p : Passage δ α) : Turn → Passage δ α
  | .own =>
    match step? rules resolve plan p.now p.shared p.call with
    | none => p
    | some (call, shared) => p.movedTo call shared
  | .others ms breakers =>
    { p with now := p.now + ms, shared := { p.shared with breakers := breakers } }

def run (p : Passage δ α) (turns : List Turn) : Passage δ α :=
  turns.foldl (step rules resolve plan) p

variable {rules resolve plan}

theorem run_append (p : Passage δ α) (turns turns' : List Turn) :
    p.run rules resolve plan (turns ++ turns') =
      (p.run rules resolve plan turns).run rules resolve plan turns' :=
  List.foldl_append

/-- A call that is made alone takes turns of its own, and waits while nobody does anything. -/
theorem exists_turns_of_trace {k now later : Nat} {w w' : Shared δ} {c c' : Call α}
    {marks : List (Nat × Mark α)} (h : Trace rules resolve plan k now w c marks later w' c')
    (lookups : List Lookup) :
    ∃ turns lookups', run rules resolve plan ⟨now, w, c, lookups⟩ turns =
      ⟨later, w', c', lookups'⟩ := by
  induction h generalizing lookups with
  | done => exact ⟨[], lookups, rfl⟩
  | @move k now later w w₁ w' c c₁ c' mark marks first _ ih =>
      rcases ih (lookups ++ c₁.awaited?.toList) with ⟨turns, lookups', hrun⟩
      have hstep : step rules resolve plan ⟨now, w, c, lookups⟩ .own =
          ⟨now, w₁, c₁, lookups ++ c₁.awaited?.toList⟩ := by
        simp only [step, step?_of_move first, movedTo]
      refine ⟨.own :: turns, lookups', ?_⟩
      rw [run, List.foldl_cons, hstep]
      exact hrun
  | @wait k now t later w w' c c' marks still wake _ ih =>
      rcases ih lookups with ⟨turns, lookups', hrun⟩
      have hstep : step rules resolve plan ⟨now, w, c, lookups⟩
          (.others (max now t - now) w.breakers) = ⟨max now t, w, c, lookups⟩ := by
        simp only [step, Nat.add_sub_cancel' (Nat.le_max_left now t)]
      refine ⟨.others (max now t - now) w.breakers :: turns, lookups', ?_⟩
      rw [run, List.foldl_cons, hstep]
      exact hrun

/-!
## What a call has looked up
-/

/-- A call got the answers to lookups in a row, and called the endpoints that they found, but for
an answer that it still waits for. -/
structure Consults (resolve : Resolve δ) (service : String) (start : δ) (p : Passage δ α) :
    Prop where
  answers : p.lookups = (List.range p.lookups.length).map (resolve.answer service start)
  state : p.shared.lookups = resolve.stateAfter service start p.lookups.length
  called : p.lookups.filterMap (Lookup.endpoint? service) =
    p.call.tried.reverse ++ p.call.awaited?.toList.filterMap (Lookup.endpoint? service)

theorem awaited?_stageAfter (rules : CallRules) (now : Nat) (c : Call α)
    (outcome : Except CallError α) :
    ({ c with stage := stageAfter rules now c.attempts outcome } : Call α).awaited? = none := by
  cases outcome with
  | ok value => rfl
  | error e =>
      cases e with
      | application status message => rfl
      | transient causes =>
          by_cases hlast : rules.retry.attempts ≤ c.attempts <;>
            simp [awaited?, stageAfter, hlast]

section Moves

variable {start : δ} {p : Passage δ α} {call : Call α} {shared : Shared δ}

theorem lookups_movedTo (hafter : call.awaited? = none) :
    (p.movedTo call shared).lookups = p.lookups := by
  rw [movedTo, hafter]
  exact List.append_nil _

theorem Consults.keep (h : p.Consults resolve rules.service start)
    (hlookups : shared.lookups = p.shared.lookups) (hbefore : p.call.awaited? = none)
    (hafter : call.awaited? = none) (htried : call.tried = p.call.tried) :
    (p.movedTo call shared).Consults resolve rules.service start := by
  have hsame : (p.movedTo call shared).lookups = p.lookups := lookups_movedTo hafter
  have hcalled := h.called
  rw [hbefore, ← htried] at hcalled
  constructor
  · rw [hsame]
    exact h.answers
  · rw [hsame]
    exact hlookups.trans h.state
  · rw [hsame, movedTo, hafter]
    exact hcalled

theorem Consults.hear (h : p.Consults resolve rules.service start)
    (hlookups : shared.lookups = p.shared.lookups) {lookup : Lookup}
    (hbefore : p.call.awaited? = some lookup) (hafter : call.awaited? = none)
    (htried : call.tried = (lookup.endpoint? rules.service).toList ++ p.call.tried) :
    (p.movedTo call shared).Consults resolve rules.service start := by
  have hsame : (p.movedTo call shared).lookups = p.lookups := lookups_movedTo hafter
  constructor
  · rw [hsame]
    exact h.answers
  · rw [hsame]
    exact hlookups.trans h.state
  · rw [hsame, h.called, hbefore, movedTo, hafter, htried]
    cases hfound : lookup.endpoint? rules.service <;> simp [hfound]

theorem Consults.look (h : p.Consults resolve rules.service start) {lookup : Lookup}
    (hlook : resolve p.shared.lookups rules.service = (lookup, shared.lookups))
    (hbefore : p.call.awaited? = none) (hafter : call.awaited? = some lookup)
    (htried : call.tried = p.call.tried) :
    (p.movedTo call shared).Consults resolve rules.service start := by
  rw [h.state, resolve.resolve_stateAfter, Prod.mk.injEq] at hlook
  rcases hlook with ⟨rfl, hstate⟩
  have hsnoc : (p.movedTo call shared).lookups =
      p.lookups ++ [resolve.answer rules.service start p.lookups.length] := by
    rw [movedTo, hafter]
    rfl
  have hlength : (p.movedTo call shared).lookups.length = p.lookups.length + 1 := by
    rw [hsnoc, List.length_append]
    rfl
  have hcalled := h.called
  rw [hbefore, ← htried] at hcalled
  constructor
  · rw [hlength, List.range_succ, List.map_append, ← h.answers]
    exact hsnoc
  · rw [hlength]
    exact hstate.symm
  · rw [hsnoc, List.filterMap_append, hcalled, movedTo, hafter]
    exact congrArg (· ++ _) (List.append_nil _)

theorem consults_move (h : p.Consults resolve rules.service start) {mark : Option (Mark α)}
    (hmove : Move rules resolve plan p.now p.shared p.call mark shared call) :
    (p.movedTo call shared).Consults resolve rules.service start := by
  cases hmove with
  | refused stage _ => exact h.keep rfl (by simp only [awaited?, stage]) rfl rfl
  | admitted stage _ look => exact h.look look (by simp only [awaited?, stage]) rfl rfl
  | @unlocated permit since lookup e stage _ found =>
      have hfound : lookup.endpoint? rules.service = none := by
        rw [Lookup.endpoint?, found]
        rfl
      exact h.hear rfl (by simp only [awaited?, stage]; rfl) rfl (by rw [hfound]; rfl)
  | @called permit since lookup endpoint stage _ found =>
      have hfound : lookup.endpoint? rules.service = some endpoint := by
        rw [Lookup.endpoint?, found]
        rfl
      exact h.hear rfl (by simp only [awaited?, stage]; rfl) rfl (by rw [hfound]; rfl)
  | settled stage _ =>
      exact h.keep rfl (by simp only [awaited?, stage]) (awaited?_stageAfter _ _ _ _) rfl
  | resumed stage _ => exact h.keep rfl (by simp only [awaited?, stage]) rfl rfl

theorem consults_step (h : p.Consults resolve rules.service start) (turn : Turn) :
    (p.step rules resolve plan turn).Consults resolve rules.service start := by
  cases turn with
  | others ms breakers => exact ⟨h.answers, h.state, h.called⟩
  | own =>
      unfold step
      cases hstep : step? rules resolve plan p.now p.shared p.call with
      | none => exact h
      | some moved =>
          rcases exists_move_of_step? hstep with ⟨mark, hmove⟩
          exact consults_move h hmove

end Moves

theorem consults_run (rules : CallRules) (resolve : Resolve δ)
    (plan : Nat → Endpoint → Reply α) (now : Nat) (breakers : Breakers) (start : δ)
    (turns : List Turn) :
    (run rules resolve plan (begun now breakers start) turns).Consults resolve rules.service
      start := by
  induction turns using List.reverseRecOn with
  | nil => exact ⟨rfl, rfl, rfl⟩
  | append_singleton turns turn ih =>
      rw [run_append]
      exact consults_step ih turn

end Passage
end Call

/-!
## Lookups in a directory
-/

namespace Directory

def find : Resolve Directory :=
  .atOnce resolve

/-- How far the count of turns can go before it begins anew; a single endpoint takes no turns. -/
def InRange (cursor : UInt64) (endpoints : List Endpoint) (lookups : Nat) : Prop :=
  endpoints.length = 1 ∨ cursor.toNat + lookups ≤ 2 ^ 64

variable {d : Directory} {service : String} {endpoints : List Endpoint}

theorem rotateLeft_mod {β : Type} (n : Nat) (items : List β) :
    rotateLeft (n % items.length) items = items.rotate n :=
  List.rotate_eq_drop_append_take_mod.symm

theorem rotate_of_single {β : Type} {items : List β} (h : items.length = 1) (m n : Nat) :
    items.rotate m = items.rotate n := by
  rcases List.length_eq_one_iff.mp h with ⟨item, rfl⟩
  rw [List.rotate_singleton, List.rotate_singleton]

theorem resolve_of_listed (h : d.services.lookup service = some endpoints)
    (hsome : endpoints ≠ []) :
    d.resolve service =
      (.ok (endpoints.rotate d.cursor.toNat),
        { d with cursor := if endpoints.length = 1 then d.cursor else d.cursor + 1 }) := by
  by_cases hone : endpoints.length = 1
  · rcases List.length_eq_one_iff.mp hone with ⟨endpoint, rfl⟩
    simp [resolve, h, inTurn, List.rotate_singleton]
  · have hseveral : 1 < endpoints.length := by
      have hpos := List.length_pos_iff.mpr hsome
      omega
    rw [resolve_of_several h hseveral, rotateLeft_mod, if_neg hone]

theorem stateAfter_find (h : d.services.lookup service = some endpoints)
    (hsome : endpoints ≠ []) (k : Nat) :
    find.stateAfter service d k =
      { d with cursor := if endpoints.length = 1 then d.cursor else d.cursor + .ofNat k } := by
  induction k with
  | zero => simp [Resolve.stateAfter]
  | succ k ih =>
      have hstep : find.stateAfter service d (k + 1) =
          ((find.stateAfter service d k).resolve service).2 := rfl
      have hsame : (find.stateAfter service d k).services = d.services := by
        rw [ih]
      rw [hstep, resolve_of_listed (hsame ▸ h) hsome, ih]
      by_cases hone : endpoints.length = 1
      · simp only [hone, if_true]
      · simp only [hone, if_false, UInt64.ofNat_add, UInt64.add_assoc]
        rfl

theorem answer_find (h : d.services.lookup service = some endpoints) (hsome : endpoints ≠ [])
    {k : Nat} (hrange : InRange d.cursor endpoints (k + 1)) :
    find.answer service d k = { found := .ok (endpoints.rotate (d.cursor.toNat + k)) } := by
  have hsame : (find.stateAfter service d k).services = d.services := by
    rw [stateAfter_find h hsome]
  have hanswer : find.answer service d k =
      { found := ((find.stateAfter service d k).resolve service).1 } := rfl
  rw [hanswer, resolve_of_listed (hsame ▸ h) hsome, stateAfter_find h hsome]
  by_cases hone : endpoints.length = 1
  · rw [rotate_of_single hone _ (d.cursor.toNat + k)]
  · have hroom := hrange.resolve_left hone
    have hcursor : (d.cursor + .ofNat k).toNat = d.cursor.toNat + k := by
      rw [UInt64.toNat_add, UInt64.toNat_ofNat']
      omega
    simp only [hone, if_false, hcursor]

theorem endpoint?_answer (h : d.services.lookup service = some endpoints)
    (hsome : endpoints ≠ []) {k : Nat} (hrange : InRange d.cursor endpoints (k + 1)) :
    (find.answer service d k).endpoint? service =
      endpoints[(d.cursor.toNat + k) % endpoints.length]? := by
  have hplace : (d.cursor.toNat + k) % endpoints.length < endpoints.length :=
    Nat.mod_lt _ (List.length_pos_iff.mpr hsome)
  have hhead := List.head?_rotate hplace
  rw [List.rotate_mod, List.getElem?_eq_getElem hplace] at hhead
  rw [answer_find h hsome hrange, List.getElem?_eq_getElem hplace]
  cases hlist : endpoints.rotate (d.cursor.toNat + k) with
  | nil =>
      rw [hlist] at hhead
      cases hhead
  | cons first rest =>
      rw [hlist] at hhead
      exact hhead

/-!
## Endpoints in turn
-/

open Call (Passage)

/-- A call whose first lookup has a turn goes to one endpoint after the other, beginning with the
one of that turn. -/
structure FailsOver (turn : Nat) (endpoints : List Endpoint) (p : Passage Directory α) : Prop where
  whole : ∀ (k : Nat) (lookup : Lookup), p.lookups[k]? = some lookup →
    lookup.found = .ok (endpoints.rotate (turn + k))
  inTurn : ∀ k < p.call.tried.length,
    p.call.tried.reverse[k]? = endpoints[(turn + k) % endpoints.length]?
  /-- Each attempt that was admitted has called an endpoint, once its lookup is over. -/
  called : p.call.awaited? = none → p.call.tried.length = p.lookups.length
  all : p.call.awaited? = none → endpoints.length ≤ p.lookups.length →
    ∀ endpoint ∈ endpoints, endpoint ∈ p.call.tried

theorem InRange.mono {cursor : UInt64} {m n : Nat} (h : InRange cursor endpoints n) (hle : m ≤ n) :
    InRange cursor endpoints m :=
  h.imp_right fun hroom => Nat.le_trans (Nat.add_le_add_left hle _) hroom

variable {p : Passage Directory α}

theorem getElem?_lookups (hconsults : p.Consults find service d) {k : Nat}
    (hk : k < p.lookups.length) : p.lookups[k]? = some (find.answer service d k) := by
  rw [hconsults.answers, List.getElem?_map, List.getElem?_range hk]
  rfl

section Listed

variable (h : d.services.lookup service = some endpoints) (hsome : endpoints ≠ [])
  (hconsults : p.Consults find service d)
  (hrange : InRange d.cursor endpoints p.lookups.length)

include h hsome hconsults hrange

/-- What the lookups of a call find are the endpoints in turn. -/
theorem map_endpoint?_lookups :
    p.lookups.map (Lookup.endpoint? service) =
      (List.range p.lookups.length).map fun k =>
        endpoints[(d.cursor.toNat + k) % endpoints.length]? := by
  conv_lhs => rw [hconsults.answers, List.map_map]
  refine List.map_congr_left fun k hk => ?_
  exact endpoint?_answer h hsome (hrange.mono (List.mem_range.mp hk))

theorem map_some_called :
    (p.lookups.filterMap (Lookup.endpoint? service)).map some =
      (List.range p.lookups.length).map fun k =>
        endpoints[(d.cursor.toNat + k) % endpoints.length]? := by
  rw [List.map_filterMap_some_eq_filter_map_isSome,
    map_endpoint?_lookups h hsome hconsults hrange, List.filter_eq_self]
  intro found hfound
  rcases List.mem_map.mp hfound with ⟨k, _, rfl⟩
  rw [List.getElem?_eq_getElem (Nat.mod_lt _ (List.length_pos_iff.mpr hsome))]
  rfl

theorem length_tried (hidle : p.call.awaited? = none) :
    p.call.tried.length = p.lookups.length := by
  have hlength := congrArg List.length (map_some_called h hsome hconsults hrange)
  rw [hconsults.called, hidle] at hlength
  simpa using hlength

theorem getElem?_tried {k : Nat} (hk : k < p.call.tried.length) :
    p.call.tried.reverse[k]? = endpoints[(d.cursor.toNat + k) % endpoints.length]? := by
  have hcalled := map_some_called h hsome hconsults hrange
  have hlength := congrArg List.length hcalled
  rw [hconsults.called] at hcalled hlength
  simp only [List.length_map, List.length_append, List.length_reverse,
    List.length_range] at hlength
  have hplace := congrArg (fun places => places[k]?) hcalled
  simp only [List.getElem?_map] at hplace
  rw [List.getElem?_append_left (by rwa [List.length_reverse]),
    List.getElem?_range (by omega), Option.map_some] at hplace
  cases htried : p.call.tried.reverse[k]? with
  | none =>
      rw [htried] at hplace
      cases hplace
  | some endpoint =>
      rw [htried, Option.map_some] at hplace
      exact Option.some.inj hplace

theorem failsOver_of_consults : FailsOver d.cursor.toNat endpoints p where
  whole := by
    intro k lookup hlookup
    have hk : k < p.lookups.length := (List.getElem?_eq_some_iff.mp hlookup).1
    rw [getElem?_lookups hconsults hk, answer_find h hsome (hrange.mono hk)] at hlookup
    cases hlookup
    rfl
  inTurn := fun k hk => getElem?_tried h hsome hconsults hrange hk
  called := length_tried h hsome hconsults hrange
  all := by
    intro hidle hoften endpoint hmem
    -- An endpoint has its place in the list as it is rotated to the first turn.
    rcases List.getElem?_of_mem (List.mem_rotate.mpr hmem) with ⟨k, hk⟩
    have hfew : k < endpoints.length := by
      have hlt := (List.getElem?_eq_some_iff.mp hk).1
      rwa [List.length_rotate] at hlt
    rw [List.getElem?_rotate hfew, Nat.add_comm] at hk
    have htried := length_tried h hsome hconsults hrange hidle
    have hplace := getElem?_tried h hsome hconsults hrange (k := k) (by omega)
    exact List.mem_reverse.mp (List.mem_of_getElem? (hplace.trans hk))

end Listed

/-- Whatever others do to the breakers, as long as they look nothing up a call goes to the
endpoints of its service in turn; and a call that is made alone comes to its end in such a way. -/
theorem failsOver_of_listed (rules : CallRules) (plan : Nat → Endpoint → Reply α) (now : Nat)
    (breakers : Breakers) {d : Directory} {endpoints : List Endpoint}
    (hservice : d.services.lookup rules.service = some endpoints) (hsome : endpoints ≠ []) :
    (∀ turns : List Call.Turn,
        InRange d.cursor endpoints
          ((Passage.begun now breakers d).run rules find plan turns).lookups.length →
        FailsOver d.cursor.toNat endpoints
          ((Passage.begun now breakers d).run rules find plan turns)) ∧
      ∃ (turns : List Call.Turn) (lookups : List Lookup) (c : Call α) (w : Shared Directory)
        (later : Nat),
        Call.execute rules find plan now ⟨breakers, d⟩ = (c, w, later) ∧
          (Passage.begun now breakers d).run rules find plan turns = ⟨later, w, c, lookups⟩ ∧
          (c.result?).isSome := by
  constructor
  · intro turns hrange
    have hconsults := Passage.consults_run rules find plan now breakers d turns
    exact failsOver_of_consults hservice hsome hconsults hrange
  · rcases Call.exists_returns_execute rules find plan now ⟨breakers, d⟩ with
      ⟨c, w, later, k, log, result, hexecute, hreturns⟩
    rcases Passage.exists_turns_of_trace hreturns.trace [] with ⟨turns, lookups, hrun⟩
    refine ⟨turns, lookups, c, w, later, hexecute, hrun, ?_⟩
    rw [hreturns.result?_eq]
    rfl

/-- A directory in which the next lookup of a service begins with its last endpoint. -/
def lastTurn : Directory :=
  { ofBases [("gw", ["http://a", "http://b", "http://c"])] with cursor := 2 }

/-- Three attempts, and pauses in which others leave the breakers as new. -/
def threeAttempts : List Call.Turn :=
  [.own, .own, .own, .others 100 { settings := {} }, .own, .own, .own, .own,
    .others 200 { settings := {} }, .own, .own, .own, .own]

/-- A call that fails in transit three times goes round the endpoints once. -/
theorem failsOver_lastTurn :
    let plan : Nat → Endpoint → Reply Unit := fun _ _ => ⟨some 0, .error (.transient ["down"])⟩
    let endpoints : List Endpoint := [⟨"http://a"⟩, ⟨"http://b"⟩, ⟨"http://c"⟩]
    let p := (Passage.begun 0 { settings := {} } lastTurn).run { service := "gw" } find plan
      threeAttempts
    lastTurn.services.lookup "gw" = some endpoints ∧ endpoints ≠ [] ∧
      InRange lastTurn.cursor endpoints p.lookups.length ∧ FailsOver 2 endpoints p ∧
      p.call.tried.reverse = [⟨"http://c"⟩, ⟨"http://a"⟩, ⟨"http://b"⟩] ∧
      p.call.result? = some (.error (.transient "gw" 3 ["down"])) := by
  intro plan endpoints p
  have hservice : lastTurn.services.lookup "gw" = some endpoints := by decide +kernel
  have hsome : endpoints ≠ [] := by decide
  have hrange : InRange lastTurn.cursor endpoints p.lookups.length := Or.inr (by decide +kernel)
  have hfails := (failsOver_of_listed { service := "gw" } plan 0 { settings := {} } hservice
    hsome).left threeAttempts hrange
  exact ⟨hservice, hsome, hrange, hfails, by decide +kernel, by decide +kernel⟩

end Directory
end Rpc
end Courier
