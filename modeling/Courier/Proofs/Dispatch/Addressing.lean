import Courier.Proofs.Config.Hosting
import Courier.Proofs.Dispatch.Retries
import Courier.Proofs.Routing.Keys

/-!
# Addressing providers

A routing key made for a provider names the provider's segment, and dispatch looks for just
that segment among the providers that are hosted. Providers that are their own segments are
found under the routing keys made for them; for any other provider, dispatch turns to the
provider that is called like its segment, if that one is hosted.

The main statement is `addressed_of_hosted`.
-/

namespace Courier
namespace Dispatch

open Provider (Answer Handle Registry hosted keys_of_hosted sender?_of_hosted)
open Routing (normal Plain normal_eq_self_iff)

/-- A delivery with a command that is sound, under a routing key. -/
structure Carries (d : Bus.Delivery) (key : String) (command : Command) : Prop where
  keyed : Routing.keyOf? d.header? = some key
  read : Command.ofBytes? d.payload = some command
  valid : command.validate = none

/--
Whatever sound command comes under a routing key, the sender registered for a provider is given
its message, once or more, and nothing else is given to any adapter.
-/
def SentUnder (registry : Registry Handle) (op : Operation) (key provider : String) : Prop :=
  ∃ sender, registry.sender? provider = some sender ∧ sender.reported = provider ∧
    ∀ (σ : Type) (settings : Settings) (send : Send σ) (clock : Int64) (d : Bus.Delivery)
      (cancelAt : Option Nat) (adapters : σ) (command : Command), Carries d key command →
      ∃ answers, answers ≠ [] ∧
        Asked send ⟨op, provider, sender, command.toMessage clock⟩ adapters answers
          (handle registry settings send clock op d cancelAt adapters).adapters

/-- Whatever sound command comes under a routing key is passed over for want of a provider. -/
def PassedOver (registry : Registry Handle) (op : Operation) (key provider : String) : Prop :=
  ∀ (σ : Type) (settings : Settings) (send : Send σ) (clock : Int64) (d : Bus.Delivery)
    (cancelAt : Option Nat) (adapters : σ) (command : Command), Carries d key command →
    handle registry settings send clock op d cancelAt adapters =
      ⟨.skipped (.unknownProvider provider), adapters, 0⟩

/-!
## Commands under a provider's routing key
-/

theorem Course.answers_ne_nil {σ : Type} {settings : Settings} {send : Send σ} {job : Job}
    {cancelAt : Option Nat} {n now t : Nat} {s s' : σ} {answers : List Answer} {ending : Ending}
    (h : Course settings send job cancelAt n now s answers ending s' t) : answers ≠ [] := by
  cases h <;> exact List.cons_ne_nil _ _

theorem Carries.providerOf? {d : Bus.Delivery} {op : Operation} {provider : String}
    {command : Command} (h : Carries d (op.routingKey provider) command) :
    providerOf? d = some (normal provider) := by
  rw [Dispatch.providerOf?, h.keyed, Option.bind_eq_bind, Option.bind_some,
    op.providerOf?_routingKey]

theorem sentUnder_of_sender {registry : Registry Handle} (op : Operation) {provider : String}
    {sender : Handle} (hsender : registry.sender? (normal provider) = some sender)
    (hreported : sender.reported = normal provider) :
    SentUnder registry op (op.routingKey provider) (normal provider) := by
  refine ⟨sender, hsender, hreported, ?_⟩
  intro σ settings send clock d cancelAt adapters command hcarries
  have hjob := jobOf_of_sound clock op hcarries.providerOf? hcarries.read hcarries.valid hsender
  rcases handle_of_job registry settings send clock op d cancelAt adapters hjob with
    ⟨answers, ending, s, t, hcourse, hhandle⟩
  refine ⟨answers, hcourse.answers_ne_nil, ?_⟩
  rw [hhandle]
  exact hcourse.asked

theorem passedOver_of_none {registry : Registry Handle} (op : Operation) {provider : String}
    (hnone : registry.sender? (normal provider) = none) :
    PassedOver registry op (op.routingKey provider) (normal provider) := by
  intro σ settings send clock d cancelAt adapters command hcarries
  apply handle_of_error
  simp only [jobOf, hcarries.providerOf?, hcarries.read, hcarries.valid, hnone]

/-!
## The law
-/

structure Addressed (registry : Registry Handle) (op : Operation) (provider : String) : Prop where
  named : Routing.providerOf? (op.routingKey provider) = some (normal provider)
  faithful : Routing.providerOf? (op.routingKey provider) = some provider ↔ Plain provider
  own : Plain provider → SentUnder registry op (op.routingKey provider) provider
  other : normal provider ∈ registry.keys →
    SentUnder registry op (op.routingKey provider) (normal provider)
  nobody : normal provider ∉ registry.keys →
    PassedOver registry op (op.routingKey provider) (normal provider)

/-- Hosted providers are addressed by their segments. -/
theorem addressed_of_hosted (c : Config) {registry : Registry Handle}
    (h : hosted c.providers = .ok registry) (op : Operation) {provider : String}
    (hprovider : provider ∈ c.providers) : Addressed registry op provider := by
  have hkeys : registry.keys = c.providers := keys_of_hosted h
  have hsent : normal provider ∈ registry.keys →
      SentUnder registry op (op.routingKey provider) (normal provider) := by
    intro hmem
    rw [hkeys] at hmem
    rcases List.mem_iff_getElem?.mp hmem with ⟨place, hplace⟩
    exact sentUnder_of_sender op
      ((sender?_of_hosted h (a := ⟨normal provider, place⟩)).mpr ⟨rfl, hplace⟩) rfl
  constructor
  · exact op.providerOf?_routingKey provider
  · rw [op.providerOf?_routingKey, Option.some_inj]
    exact normal_eq_self_iff
  · intro hplain
    have hself : normal provider = provider := normal_eq_self_iff.mpr hplain
    rw [hself, hkeys] at hsent
    exact hsent hprovider
  · exact hsent
  · intro hmem
    apply passedOver_of_none
    rw [Option.eq_none_iff_forall_ne_some]
    intro sender hsender
    rw [hkeys] at hmem
    exact hmem (List.mem_of_getElem? ((sender?_of_hosted h).mp hsender).right)

def dottedConfig : Config :=
  Config.hostingConfig ["a.b", "a-b"]

theorem addressed_dottedConfig :
    ∃ registry, hosted dottedConfig.providers = .ok registry ∧
      "a.b" ∈ dottedConfig.providers ∧ "a-b" ∈ dottedConfig.providers ∧
      Addressed registry .sendImage "a.b" ∧ Addressed registry .sendImage "a-b" := by
  have hdotted : "a.b" ∈ dottedConfig.providers := by decide
  have hplain : "a-b" ∈ dottedConfig.providers := by decide
  exact ⟨_, rfl, hdotted, hplain, addressed_of_hosted dottedConfig rfl .sendImage hdotted,
    addressed_of_hosted dottedConfig rfl .sendImage hplain⟩

/-- A sound command under the routing key made for the provider with the dot. -/
def dottedDelivery : Bus.Delivery :=
  .ofParcel "1"
    { subject := Operation.sendText.routingKey "a.b", payload := plainDelivery.payload }

/-- The routing key made for one of the two names the other, whose sender gets the message. -/
theorem misaddressed_dottedConfig :
    dottedConfig.validate = none ∧ "a.b" ∈ dottedConfig.providers ∧
      Routing.providerOf? (Operation.sendText.routingKey "a.b") = some "a-b" ∧
      ∃ registry command, hosted dottedConfig.providers = .ok registry ∧
        registry.sender? "a.b" = some ⟨"a.b", 0⟩ ∧
        Carries dottedDelivery (Operation.sendText.routingKey "a.b") command ∧
        (handle registry {} sendByScript 0 .sendText dottedDelivery none [{}, {}]).adapters.map
          (·.sends.length) = [0, 1] := by
  refine ⟨by decide +kernel, by decide, by decide +kernel, _,
    { messageId := "m", domainId := 1 }, rfl, by decide +kernel, ?_, by decide +kernel⟩
  exact ⟨by decide +kernel, by decide +kernel, by decide +kernel⟩

end Dispatch
end Courier
