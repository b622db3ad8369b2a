import Courier.Proofs.Dispatch.Addressing
import Courier.Proofs.Dispatch.Attempts
import Courier.Proofs.Routing.Names

/-!
# Deliveries under another routing key

The subject of a delivery chooses the operation, and a routing key among its metadata chooses
the provider. Dispatch never compares the two: of the key it reads the provider's segment only.
A delivery whose key is not one of the operation's is passed over for the reasons for which any
other is, and sent otherwise.

The main statement is `heedsPattern_iff_unfit`.
-/

namespace Courier
namespace Dispatch

open Provider (Answer Handle Registry)
open Routing (topicMatches)
open Text (splitChars)

def Misrouted (op : Operation) (d : Bus.Delivery) : Prop :=
  ∃ key, Routing.keyOf? d.header? = some key ∧ topicMatches op.bindingPattern key = false

/-- The kind of an operation stands where routing keys tell it. -/
def NamesKind (op : Operation) (key : String) : Prop :=
  (splitChars '.' key.toList)[4]? = some op.kind.toList

theorem not_matches_of_namesKind {op op' : Operation} {key : String} (hne : op' ≠ op)
    (h : NamesKind op' key) : topicMatches op.bindingPattern key = false := by
  rw [← Bool.not_eq_true]
  intro hmatches
  have hkind := h.symm.trans (Operation.kind_of_matches hmatches)
  exact hne (Operation.kind_injective (String.toList_injective (Option.some.inj hkind)))

section Handling

variable {σ τ : Type} (registry : Registry Handle) (settings : Settings) (send : Send σ)
  (clock : Int64) (op : Operation) (d : Bus.Delivery) (cancelAt : Option Nat) (adapters : σ)
  (sink : LetterSink τ) (time : String) (s : τ)

/-- The delivery is acknowledged as skipped, without a dead letter, and no adapter is called. -/
structure Declined : Prop where
  skipped : ∃ why,
    (handle registry settings send clock op d cancelAt adapters).outcome = .skipped why
  uncalled : callsFor registry settings send clock op d cancelAt adapters = 0
  acknowledged : settling sink op time d
    (handle registry settings send clock op d cancelAt adapters).outcome s =
      ([.settled .ack], s)

/-!
## What is declined
-/

theorem declined_of_unfit (h : Unfit registry d) :
    Declined registry settings send clock op d cancelAt adapters sink time s := by
  cases hjob : jobOf registry clock op d with
  | ok job => exact absurd h (fit_of_ok hjob)
  | error why =>
      have hhandle := handle_of_error registry settings send clock op d cancelAt adapters hjob
      constructor
      · rw [hhandle]
        exact ⟨why, rfl⟩
      · unfold callsFor
        rw [handle_of_error registry settings (counting send) clock op d cancelAt (adapters, 0)
          hjob]
      · rw [hhandle]
        rfl

theorem callsFor_pos (h : ¬ Unfit registry d) :
    0 < callsFor registry settings send clock op d cancelAt adapters := by
  cases hjob : jobOf registry clock op d with
  | error why => exact absurd (unfit_of_error hjob) h
  | ok job =>
      rcases handle_of_job registry settings (counting send) clock op d cancelAt (adapters, 0)
        hjob with ⟨answers, ending, s', t, hcourse, hhandle⟩
      have hcalls := hcourse.calls
      rw [Nat.zero_add] at hcalls
      unfold callsFor
      rw [hhandle, hcalls]
      exact List.length_pos_iff.mpr hcourse.answers_ne_nil

theorem callsFor_eq_zero_iff :
    callsFor registry settings send clock op d cancelAt adapters = 0 ↔ Unfit registry d := by
  constructor
  · intro hzero
    by_contra hfit
    have hpos := callsFor_pos registry settings send clock op d cancelAt adapters hfit
    omega
  · intro hunfit
    exact (declined_of_unfit registry settings send clock op d cancelAt adapters
      (fun s _ => (true, s)) "" () hunfit).uncalled

/-!
## The check of the routing key
-/

/--
A delivery under a routing key that is not one of the operation's is declined; so a command
under a key of another operation's kind is sent to nobody.
-/
structure HeedsPattern : Prop where
  declined : Misrouted op d →
    Declined registry settings send clock op d cancelAt adapters sink time s
  foreign : ∀ op' key command, op' ≠ op → NamesKind op' key → Carries d key command →
    callsFor registry settings send clock op d cancelAt adapters = 0

/-- The check is as good as made just when there is another reason not to send. -/
theorem heedsPattern_iff_unfit :
    HeedsPattern registry settings send clock op d cancelAt adapters sink time s ↔
      (Misrouted op d → Unfit registry d) := by
  constructor
  · intro hheeds hmisrouted
    exact (callsFor_eq_zero_iff registry settings send clock op d cancelAt adapters).mp
      (hheeds.declined hmisrouted).uncalled
  · intro hunfit
    have hdeclined : Misrouted op d →
        Declined registry settings send clock op d cancelAt adapters sink time s :=
      fun hmisrouted => declined_of_unfit registry settings send clock op d cancelAt adapters sink
        time s (hunfit hmisrouted)
    refine ⟨hdeclined, ?_⟩
    intro op' key command hne hkind hcarries
    exact (hdeclined ⟨key, hcarries.keyed, not_matches_of_namesKind hne hkind⟩).uncalled

end Handling

/-- A sound command that came for texts, under the routing key of an image. -/
def imageKeyed : Bus.Delivery :=
  { plainDelivery with metadata := [("x-routing-key", Operation.sendImage.routingKey "whatsapp")] }

/-- It is sent as a text. -/
theorem not_heedsPattern_imageKeyed :
    Misrouted .sendText imageKeyed ∧
      (handle plainRegistry {} sendByScript 0 .sendText imageKeyed none [{}]).outcome =
        .handled "whatsapp" 1 ∧
      ¬ HeedsPattern plainRegistry {} sendByScript 0 .sendText imageKeyed none [{}]
        (fun (s : Unit) _ => (true, s)) "" () := by
  have hmisrouted : Misrouted .sendText imageKeyed :=
    ⟨Operation.sendImage.routingKey "whatsapp", by decide +kernel, by decide +kernel⟩
  have hhandled : (handle plainRegistry {} sendByScript 0 .sendText imageKeyed none
      [{}]).outcome = .handled "whatsapp" 1 := by
    decide +kernel
  refine ⟨hmisrouted, hhandled, ?_⟩
  intro hheeds
  rcases (hheeds.declined hmisrouted).skipped with ⟨why, hskipped⟩
  rw [hhandled] at hskipped
  cases hskipped

end Dispatch
end Courier
