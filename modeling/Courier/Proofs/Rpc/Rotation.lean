import Courier.Rpc.Discovery
import Mathlib.Data.List.Nodup
import Mathlib.Data.List.Perm.Subperm
import Mathlib.Data.Nat.ModEq

/-!
# Endpoints in turn

A directory keeps one count of turns for all its services, and every lookup of a service with
several endpoints moves it on. So a service begins with each of its endpoints in turn as long as
no other such service is looked up, and otherwise just when the turns at which it is looked up
fall on different endpoints.

The main statement is `takesTurns_of_spread`.
-/

namespace Courier
namespace Rpc

theorem head?_rotateLeft {α : Type} {n : Nat} {items : List α} (h : n < items.length) :
    (rotateLeft n items).head? = items[n]? := by
  have hdrop : (items.drop n).head? = some items[n] := by
    rw [List.head?_drop, List.getElem?_eq_getElem h]
  rw [rotateLeft, List.head?_append, hdrop, List.getElem?_eq_getElem h]
  rfl

namespace Directory

/-!
## Lookups
-/

def after (d : Directory) (lookups : List String) : Directory :=
  lookups.foldl (fun d name => (d.resolve name).2) d

/-- The endpoints that come first when a service is looked up among others. -/
def firsts (service : String) : Directory → List String → List Endpoint
  | _, [] => []
  | d, name :: rest =>
    let first := if name = service then (d.resolve name).1.toOption >>= List.head? else none
    first.toList ++ firsts service (d.resolve name).2 rest

def takesTurn (d : Directory) (name : String) : Bool :=
  1 < ((d.services.lookup name).getD []).length

/-- The turns at which a service is looked up among others, where the first lookup has turn `t`. -/
def turns (d : Directory) (service : String) : Nat → List String → List Nat
  | _, [] => []
  | t, name :: rest =>
    let later := turns d service (if d.takesTurn name then t + 1 else t) rest
    if name = service then t :: later else later

/-- In as many lookups of the service in a row as it has endpoints, each of them comes first
once. -/
def TakesTurns (d : Directory) (service : String) (endpoints : List Endpoint)
    (lookups : List String) : Prop :=
  ∀ done window rest, lookups = done ++ window ++ rest →
    window.count service = endpoints.length →
      ((d.after done).firsts service window).Perm endpoints

/-- In as many lookups of the service in a row as it has endpoints, the turns differ modulo that
number, so that no two of them fall on one place. -/
def Spread (d : Directory) (service : String) (n : Nat) (lookups : List String) : Prop :=
  ∀ window, window <:+: lookups → window.count service = n →
    ((d.turns service 0 window).map (· % n)).Nodup

theorem resolve_of_several {d : Directory} {service : String} {endpoints : List Endpoint}
    (h : d.services.lookup service = some endpoints) (hseveral : 1 < endpoints.length) :
    d.resolve service =
      (.ok (rotateLeft (d.cursor.toNat % endpoints.length) endpoints),
        { d with cursor := d.cursor + 1 }) := by
  cases endpoints with
  | nil => cases hseveral
  | cons first rest => simp only [resolve, h, inTurn, if_neg (Nat.not_le.mpr hseveral)]

theorem snd_resolve (d : Directory) (name : String) :
    (d.resolve name).2 =
      { d with cursor := if d.takesTurn name then d.cursor + 1 else d.cursor } := by
  cases h : d.services.lookup name with
  | none => simp [resolve, takesTurn, h]
  | some endpoints =>
      by_cases hseveral : 1 < endpoints.length
      · rw [resolve_of_several h hseveral]
        simp [takesTurn, h, hseveral]
      · cases endpoints with
        | nil => simp [resolve, takesTurn, h]
        | cons first rest =>
            simp only [resolve, takesTurn, h, inTurn, if_pos (Nat.not_lt.mp hseveral),
              Option.getD_some, hseveral, decide_false, Bool.false_eq_true, if_false]

theorem services_resolve (d : Directory) (name : String) :
    (d.resolve name).2.services = d.services := by
  rw [snd_resolve]

theorem turns_congr {d d' : Directory} (h : d'.services = d.services) (service : String)
    (t : Nat) (lookups : List String) :
    d'.turns service t lookups = d.turns service t lookups := by
  have hturn : d'.takesTurn = d.takesTurn := by
    funext name
    rw [takesTurn, takesTurn, h]
  induction lookups generalizing t with
  | nil => rfl
  | cons name rest ih => simp only [turns, hturn, ih]

theorem services_after (d : Directory) (lookups : List String) :
    (d.after lookups).services = d.services := by
  induction lookups generalizing d with
  | nil => rfl
  | cons name rest ih => exact (ih _).trans (d.services_resolve name)

/-!
## The turns of a service
-/

theorem toNat_cursor_resolve {d : Directory} (h : d.cursor.toNat + 1 < 2 ^ 64) (name : String) :
    (d.resolve name).2.cursor.toNat =
      if d.takesTurn name then d.cursor.toNat + 1 else d.cursor.toNat := by
  rw [snd_resolve]
  simp only
  split
  · rw [UInt64.toNat_add]
    exact Nat.mod_eq_of_lt h
  · rfl

theorem map_firsts {d : Directory} {service : String} {endpoints : List Endpoint}
    (h : d.services.lookup service = some endpoints) (hseveral : 1 < endpoints.length)
    {lookups : List String} (hfew : d.cursor.toNat + lookups.length < 2 ^ 64) :
    (d.firsts service lookups).map some =
      (d.turns service d.cursor.toNat lookups).map fun t => endpoints[t % endpoints.length]? := by
  induction lookups generalizing d with
  | nil => rfl
  | cons name rest ih =>
      rw [List.length_cons] at hfew
      have hcursor := toNat_cursor_resolve (d := d) (by omega) name
      have hrest : (d.resolve name).2.cursor.toNat + rest.length < 2 ^ 64 := by
        rw [hcursor]
        split <;> omega
      have hlater := ih (d := (d.resolve name).2) (by rw [services_resolve, h]) hrest
      rw [turns_congr (d.services_resolve name), hcursor] at hlater
      simp only [firsts, turns, List.map_append, hlater]
      by_cases hname : name = service
      · subst hname
        have hplace : d.cursor.toNat % endpoints.length < endpoints.length :=
          Nat.mod_lt _ (by omega)
        have hhead := head?_rotateLeft hplace
        rw [List.getElem?_eq_getElem hplace] at hhead
        simp [resolve_of_several h hseveral, Except.toOption, hhead,
          List.getElem?_eq_getElem hplace]
      · simp [hname]

theorem turns_add (d : Directory) (service : String) (s t : Nat) (lookups : List String) :
    d.turns service (s + t) lookups = (d.turns service t lookups).map (s + ·) := by
  induction lookups generalizing t with
  | nil => rfl
  | cons name rest ih =>
      have hlater : d.turns service (if d.takesTurn name then s + t + 1 else s + t) rest =
          (d.turns service (if d.takesTurn name then t + 1 else t) rest).map (s + ·) := by
        rw [← ih]
        congr 1
        split <;> omega
      simp only [turns, hlater]
      split <;> rfl

/-- Whether turns differ modulo a number does not depend on where the count begins. -/
theorem nodup_turns_iff (d : Directory) (service : String) (n s : Nat) (lookups : List String) :
    ((d.turns service s lookups).map (· % n)).Nodup ↔
      ((d.turns service 0 lookups).map (· % n)).Nodup := by
  have hsame : ∀ a b, (s + a) % n ≠ (s + b) % n ↔ a % n ≠ b % n := by
    intro a b
    exact not_congr ⟨Nat.ModEq.add_left_cancel' s, Nat.ModEq.add_left s⟩
  have hturns := d.turns_add service s 0 lookups
  rw [Nat.add_zero] at hturns
  rw [hturns, List.map_map]
  unfold List.Nodup
  rw [List.pairwise_map, List.pairwise_map]
  simp only [Function.comp_apply, hsame]

theorem length_turns (d : Directory) (service : String) (t : Nat) (lookups : List String) :
    (d.turns service t lookups).length = lookups.count service := by
  induction lookups generalizing t with
  | nil => rfl
  | cons name rest ih =>
      simp only [turns, List.count_cons, beq_iff_eq]
      split <;> simp [ih]

theorem turns_of_alone {d : Directory} {service : String} (hturn : d.takesTurn service = true)
    {lookups : List String}
    (halone : ∀ name ∈ lookups, name ≠ service → d.takesTurn name = false) (t : Nat) :
    d.turns service t lookups = List.range' t (lookups.count service) := by
  induction lookups generalizing t with
  | nil => rfl
  | cons name rest ih =>
      have hrest := ih fun other hother => halone other (List.mem_cons_of_mem _ hother)
      by_cases hname : name = service
      · subst hname
        simp only [turns, hturn, if_true, hrest, List.count_cons_self, List.range'_succ]
      · have hstays := halone name List.mem_cons_self hname
        rw [List.count_cons_of_ne (Ne.symm fun heq => hname heq.symm)]
        simp only [turns, hstays, hname, Bool.false_eq_true, if_false, hrest]

/-!
## Fairness
-/

theorem map_range_getElem? {α : Type} (items : List α) :
    (List.range items.length).map (fun i => items[i]?) = items.map some := by
  apply List.ext_getElem
  · simp
  · intro i hi _
    simp at hi
    simp [hi]

theorem nodup_range'_mod (n : Nat) : ((List.range' 0 n).map (· % n)).Nodup := by
  have hsame : (List.range' 0 n).map (· % n) = List.range' 0 n := by
    refine (List.map_congr_left ?_).trans (List.map_id _)
    intro i hi
    exact Nat.mod_eq_of_lt (by simpa using hi)
  rw [hsame]
  exact List.nodup_range'

theorem perm_of_places {α : Type} {items chosen : List α} {places : List Nat}
    (hchosen : chosen.map some = places.map fun i => items[i % items.length]?)
    (hlength : places.length = items.length) :
    ((places.map (· % items.length)).Nodup → chosen.Perm items) ∧
      (items.Nodup → chosen.Perm items → (places.map (· % items.length)).Nodup) := by
  have hsome : chosen.map some = (places.map (· % items.length)).map fun i => items[i]? := by
    rw [hchosen, List.map_map]
    rfl
  constructor
  · intro hnodup
    have hsubset : places.map (· % items.length) ⊆ List.range items.length := by
      intro i hi
      rcases List.mem_map.mp hi with ⟨place, hplace, rfl⟩
      have hpos : 0 < items.length := by
        rw [← hlength]
        exact List.length_pos_of_mem hplace
      exact List.mem_range.mpr (Nat.mod_lt _ hpos)
    have hperm : (places.map (· % items.length)).Perm (List.range items.length) := by
      refine (List.subperm_of_subset hnodup hsubset).perm_of_length_le ?_
      rw [List.length_range, List.length_map, hlength]
    have hmapped := hperm.map fun i => items[i]?
    rw [← hsome, map_range_getElem?] at hmapped
    exact (List.map_perm_map_iff (Option.some_injective α)).mp hmapped
  · intro hitems hperm
    have hnodup : (chosen.map some).Nodup :=
      (hperm.nodup_iff.mpr hitems).map (Option.some_injective α)
    rw [hsome] at hnodup
    exact hnodup.of_map _

theorem cursor_after_le (d : Directory) (lookups : List String) :
    (d.after lookups).cursor.toNat ≤ d.cursor.toNat + lookups.length := by
  induction lookups generalizing d with
  | nil => exact Nat.le_refl _
  | cons name rest ih =>
      have hfirst : (d.resolve name).2.cursor.toNat ≤ d.cursor.toNat + 1 := by
        rw [snd_resolve]
        simp only
        split
        · rw [UInt64.toNat_add]
          exact Nat.mod_le _ _
        · exact Nat.le_succ _
      have hrest := ih (d.resolve name).2
      rw [List.length_cons]
      exact Nat.le_trans hrest (by omega)

section Fair

variable (services : List (String × List String)) {service : String} {endpoints : List Endpoint}
  {lookups : List String}

/-- In a stretch of a run each endpoint comes first once if the turns in it differ. -/
theorem perm_firsts
    (hservice : (ofBases services).services.lookup service = some endpoints)
    (hseveral : 2 ≤ endpoints.length) {done window : List String}
    (hfew : done.length + window.length < 2 ^ 64)
    (hcount : window.count service = endpoints.length) :
    ((((ofBases services).turns service 0 window).map (· % endpoints.length)).Nodup →
        (((ofBases services).after done).firsts service window).Perm endpoints) ∧
      (endpoints.Nodup → (((ofBases services).after done).firsts service window).Perm endpoints →
        (((ofBases services).turns service 0 window).map (· % endpoints.length)).Nodup) := by
  have hsame := (ofBases services).services_after done
  have hcursor := (ofBases services).cursor_after_le done
  have hzero : (ofBases services).cursor.toNat = 0 := rfl
  have hroom : ((ofBases services).after done).cursor.toNat + window.length < 2 ^ 64 := by omega
  have hthere : ((ofBases services).after done).services.lookup service = some endpoints := by
    rw [hsame, hservice]
  have hfirsts := map_firsts hthere hseveral hroom
  rw [turns_congr hsame] at hfirsts
  have hlength := (ofBases services).length_turns service
    ((ofBases services).after done).cursor.toNat window
  rw [← (ofBases services).nodup_turns_iff service _ ((ofBases services).after done).cursor.toNat]
  exact perm_of_places hfirsts (hlength.trans hcount)

/-- A service takes turns with its endpoints when its turns are spread, as they are when no other
service moves the turn on; and when its endpoints differ, only then. -/
theorem takesTurns_of_spread
    (hservice : (ofBases services).services.lookup service = some endpoints)
    (hseveral : 2 ≤ endpoints.length) (hfew : lookups.length < 2 ^ 64) :
    ((ofBases services).Spread service endpoints.length lookups →
        (ofBases services).TakesTurns service endpoints lookups) ∧
      (endpoints.Nodup → (ofBases services).TakesTurns service endpoints lookups →
        (ofBases services).Spread service endpoints.length lookups) ∧
      ((∀ name ∈ lookups, name ≠ service → (ofBases services).takesTurn name = false) →
        (ofBases services).Spread service endpoints.length lookups) := by
  refine ⟨?_, ?_, ?_⟩
  · intro hspread done window rest hsplit hcount
    have hwindow : window <:+: lookups := ⟨done, rest, hsplit.symm⟩
    rw [hsplit, List.length_append, List.length_append] at hfew
    exact (perm_firsts services hservice hseveral (by omega) hcount).left
      (hspread window hwindow hcount)
  · intro hdistinct hturns window hwindow hcount
    rcases hwindow with ⟨done, rest, hsplit⟩
    rw [← hsplit, List.length_append, List.length_append] at hfew
    exact (perm_firsts services hservice hseveral (by omega) hcount).right hdistinct
      (hturns done window rest hsplit.symm hcount)
  · intro halone window hwindow hcount
    have hturn : (ofBases services).takesTurn service = true := by
      simp only [takesTurn, hservice, Option.getD_some]
      exact decide_eq_true hseveral
    have hwithin : ∀ name ∈ window, name ≠ service →
        (ofBases services).takesTurn name = false :=
      fun name hname => halone name (hwindow.subset hname)
    rw [turns_of_alone hturn hwithin, hcount]
    exact nodup_range'_mod _

end Fair

/-- A service beside one that has a single endpoint and one that is not there. -/
def unsharedBases : List (String × List String) :=
  [("gw", ["http://a", "http://b", "http://c"]), ("one", ["http://d"])]

theorem takesTurns_unshared :
    (ofBases unsharedBases).services.lookup "gw" =
        some [⟨"http://a"⟩, ⟨"http://b"⟩, ⟨"http://c"⟩] ∧
      2 ≤ ([⟨"http://a"⟩, ⟨"http://b"⟩, ⟨"http://c"⟩] : List Endpoint).length ∧
      ["gw", "one", "gw", "none", "gw", "gw"].length < 2 ^ 64 ∧
      (ofBases unsharedBases).TakesTurns "gw" [⟨"http://a"⟩, ⟨"http://b"⟩, ⟨"http://c"⟩]
        ["gw", "one", "gw", "none", "gw", "gw"] := by
  have hservice : (ofBases unsharedBases).services.lookup "gw" =
      some [⟨"http://a"⟩, ⟨"http://b"⟩, ⟨"http://c"⟩] := by
    decide +kernel
  have hseveral : 2 ≤ ([⟨"http://a"⟩, ⟨"http://b"⟩, ⟨"http://c"⟩] : List Endpoint).length := by
    decide
  have hfew : ["gw", "one", "gw", "none", "gw", "gw"].length < 2 ^ 64 := by decide
  have hfair := takesTurns_of_spread unsharedBases hservice hseveral hfew
  refine ⟨hservice, hseveral, hfew, hfair.left (hfair.right.right ?_)⟩
  decide +kernel

def sharedBases : List (String × List String) :=
  [("gw", ["http://a", "http://b"]), ("other", ["http://c", "http://d"])]

/-- A lookup of the other service in between, and the first endpoint comes first again. -/
theorem not_takesTurns_shared :
    (ofBases sharedBases).services.lookup "gw" = some [⟨"http://a"⟩, ⟨"http://b"⟩] ∧
      (ofBases sharedBases).firsts "gw" ["gw", "other", "gw"] = [⟨"http://a"⟩, ⟨"http://a"⟩] ∧
      ¬ (ofBases sharedBases).TakesTurns "gw" [⟨"http://a"⟩, ⟨"http://b"⟩]
        ["gw", "other", "gw"] := by
  have hfirsts : (ofBases sharedBases).firsts "gw" ["gw", "other", "gw"] =
      [⟨"http://a"⟩, ⟨"http://a"⟩] := by
    decide +kernel
  refine ⟨by decide +kernel, hfirsts, ?_⟩
  intro hturns
  have hperm := hturns [] ["gw", "other", "gw"] [] rfl rfl
  have hstart : (ofBases sharedBases).after [] = ofBases sharedBases := rfl
  rw [hstart, hfirsts] at hperm
  exact absurd hperm (by decide)

end Directory
end Rpc
end Courier
