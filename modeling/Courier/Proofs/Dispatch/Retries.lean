import Courier.Proofs.Dispatch.Courses

/-!
# The law of retries

What a course comes to when there is no shutdown: which attempts are made, what the
last of them decides, and how long they take in all.

The main statement is `retryLaw_handle`.
-/

namespace Courier
namespace Dispatch

open Provider (Adapter Answer Handle Registry)

variable {σ : Type}

inductive Asked (send : Send σ) (job : Job) : σ → List Answer → σ → Prop where
  | nil (s : σ) : Asked send job s [] s
  | cons {s s' s'' : σ} {a : Answer} {rest : List Answer} (first : send s job = (a, s'))
      (others : Asked send job s' rest s'') : Asked send job s (a :: rest) s''

/-- The time from the first of these attempts, which all failed, to the attempt after them. -/
def spentRetrying (settings : Settings) : List Answer → Nat
  | [] => 0
  | a :: rest => waitFor settings a + settings.retryInterval + spentRetrying settings rest

theorem Course.asked {settings : Settings} {send : Send σ} {job : Job} {cancelAt : Option Nat}
    {n now t : Nat} {s s' : σ} {answers : List Answer} {ending : Ending}
    (h : Course settings send job cancelAt n now s answers ending s' t) :
    Asked send job s answers s' := by
  induction h with
  | sent asked _ => exact .cons asked (.nil _)
  | panicked asked _ => exact .cons asked (.nil _)
  | exhausted asked _ _ => exact .cons asked (.nil _)
  | interrupted asked _ _ _ _ => exact .cons asked (.nil _)
  | again asked _ _ _ _ ih => exact .cons asked ih

/-- What the last answer decides, of so many in all. -/
inductive Decides (settings : Settings) (attempts : Nat) (a : Answer) : Ending → Prop where
  | sent (success : resultOf settings a = .ok .success) :
      Decides settings attempts a (.sent attempts)
  | panicked {reason : String} (panic : resultOf settings a = .ok (.panic reason)) :
      Decides settings attempts a (.panicked reason)
  | exhausted {f : Failure} (failure : failureOf? settings a = some f)
      (spent : attempts = settings.maxRetries.toNat + 1) :
      Decides settings attempts a (.exhausted f attempts)

theorem Decides.eq_sent {settings : Settings} {attempts : Nat} {a : Answer} {ending : Ending}
    (h : Decides settings attempts a ending) (hsuccess : resultOf settings a = .ok .success) :
    ending = .sent attempts := by
  cases h with
  | sent _ => rfl
  | panicked panic =>
      rw [hsuccess] at panic
      cases panic
  | exhausted failure _ =>
      rw [failureOf?, hsuccess] at failure
      cases failure

theorem Decides.eq_panicked {settings : Settings} {attempts : Nat} {a : Answer} {ending : Ending}
    {reason : String} (h : Decides settings attempts a ending)
    (hpanic : resultOf settings a = .ok (.panic reason)) : ending = .panicked reason := by
  cases h with
  | sent success =>
      rw [hpanic] at success
      cases success
  | panicked panic =>
      rw [hpanic] at panic
      cases panic
      rfl
  | exhausted failure _ =>
      rw [failureOf?, hpanic] at failure
      cases failure

theorem Decides.eq_exhausted {settings : Settings} {attempts : Nat} {a : Answer} {ending : Ending}
    {f : Failure} (h : Decides settings attempts a ending)
    (hfailure : failureOf? settings a = some f) :
    ending = .exhausted f attempts ∧ attempts = settings.maxRetries.toNat + 1 := by
  cases h with
  | sent success =>
      rw [failureOf?, success] at hfailure
      cases hfailure
  | panicked panic =>
      rw [failureOf?, panic] at hfailure
      cases hfailure
  | exhausted failure spent =>
      rw [hfailure] at failure
      cases failure
      exact ⟨rfl, spent⟩

theorem Course.exists_last {settings : Settings} {send : Send σ} {job : Job} {n now t : Nat}
    {s s' : σ} {answers : List Answer} {ending : Ending}
    (h : Course settings send job none n now s answers ending s' t)
    (hn : n ≤ settings.maxRetries.toNat + 1) :
    ∃ before last, answers = before ++ [last] ∧
      (∀ a ∈ before, (failureOf? settings a).isSome) ∧
      n + before.length ≤ settings.maxRetries.toNat + 1 ∧
      Decides settings (n + before.length) last ending ∧
      t = now + spentRetrying settings before + waitFor settings last := by
  induction h with
  | @sent n now s s' a asked success =>
      exact ⟨[], a, rfl, by simp, hn, .sent success, rfl⟩
  | @panicked n now s s' a reason asked panic =>
      exact ⟨[], a, rfl, by simp, hn, .panicked panic, rfl⟩
  | @exhausted n now s s' a f asked failure last =>
      exact ⟨[], a, rfl, by simp, hn, .exhausted failure (by simp; omega), rfl⟩
  | interrupted asked failure left shutdown during => cases shutdown
  | @again n now t s s' s'' a f rest ending asked failure left undisturbed further ih =>
      rcases ih (Nat.succ_le_succ left) with ⟨before, last, hrest, hfailed, hle, hdecides, htime⟩
      have hcount : n + 1 + before.length = n + (a :: before).length := by
        rw [List.length_cons]
        omega
      rw [hcount] at hle hdecides
      refine ⟨a :: before, last, by rw [hrest, List.cons_append], ?_, hle, hdecides, ?_⟩
      · intro a' ha'
        rcases List.mem_cons.mp ha' with rfl | hmem
        · rw [failure]
          rfl
        · exact hfailed a' hmem
      · rw [htime, spentRetrying]
        omega

/-!
## The law
-/

/--
What is done for a command that is sound, when adapters answer as they do and there
is no shutdown; `before` are the answers that are not the last.
-/
structure RetryLaw (settings : Settings) (send : Send σ) (command : Command) (job : Job)
    (adapters : σ) (before : List Answer) (last : Answer) (h : Handled σ) : Prop where
  asked : Asked send job adapters (before ++ [last]) h.adapters
  images : job.message.images = command.images.map Command.ImageFile.toImage
  documents : job.message.documents = command.documents.map Command.DocumentFile.toDocument
  retried : ∀ a ∈ before, (failureOf? settings a).isSome
  bounded : (before ++ [last]).length ≤ (settings.maxRetries + 1).toNat
  handled : resultOf settings last = .ok .success →
    h.outcome = .handled job.provider (before ++ [last]).length
  panicked : ∀ reason, resultOf settings last = .ok (.panic reason) →
    h.outcome = .ofPanic settings.panicPolicy (some job.provider) reason
  exhausted : ∀ f, failureOf? settings last = some f →
    (before ++ [last]).length = (settings.maxRetries + 1).toNat ∧
      h.outcome = .failed (some job.provider) f (settings.maxRetries + 1).toNat
  elapsed : h.elapsed = spentRetrying settings before + waitFor settings last

theorem jobOf_of_sound {registry : Registry Handle} (clock : Int64) (op : Operation)
    {d : Bus.Delivery} {provider : String} {command : Command} {sender : Handle}
    (hprovider : providerOf? d = some provider)
    (hcommand : Command.ofBytes? d.payload = some command) (hvalid : command.validate = none)
    (hsender : registry.sender? provider = some sender) :
    jobOf registry clock op d = .ok ⟨op, provider, sender, command.toMessage clock⟩ := by
  simp only [jobOf, hprovider, hcommand, hvalid, hsender]

theorem toNat_attempts {n : UInt32} (h : n.toNat + 1 < UInt32.size) :
    (n + 1).toNat = n.toNat + 1 := by
  rw [UInt32.toNat_add]
  exact Nat.mod_eq_of_lt h

/-- A sound command is sent by the law of retries, however the adapters answer. -/
theorem retryLaw_handle (registry : Registry Handle) (settings : Settings) (send : Send σ)
    (clock : Int64) (op : Operation) (d : Bus.Delivery) (adapters : σ) {provider : String}
    {command : Command} {sender : Handle} (hprovider : providerOf? d = some provider)
    (hcommand : Command.ofBytes? d.payload = some command) (hvalid : command.validate = none)
    (hsender : registry.sender? provider = some sender)
    (hretries : settings.maxRetries.toNat + 1 < UInt32.size) :
    ∃ before last,
      RetryLaw settings send command ⟨op, provider, sender, command.toMessage clock⟩ adapters
        before last (handle registry settings send clock op d none adapters) := by
  have hjob := jobOf_of_sound clock op hprovider hcommand hvalid hsender
  rcases handle_of_job registry settings send clock op d none adapters hjob with
    ⟨answers, ending, s, t, hcourse, hhandle⟩
  rcases hcourse.exists_last (Nat.le_add_left 1 _) with
    ⟨before, last, rfl, hfailed, hle, hdecides, htime⟩
  have hcount : 1 + before.length = (before ++ [last]).length := by
    rw [List.length_append, List.length_singleton, Nat.add_comm]
  have hattempts := toNat_attempts hretries
  rw [hcount] at hle hdecides
  refine ⟨before, last, ?_⟩
  rw [hhandle]
  constructor
  · exact hcourse.asked
  · rfl
  · rfl
  · exact hfailed
  · rw [hattempts]
    exact hle
  · intro hsuccess
    rw [hdecides.eq_sent hsuccess]
    rfl
  · intro reason hpanic
    rw [hdecides.eq_panicked hpanic]
    rfl
  · intro f hfailure
    rcases hdecides.eq_exhausted hfailure with ⟨hending, hspent⟩
    rw [hattempts, hending, hspent]
    exact ⟨rfl, rfl⟩
  · rw [htime, Nat.zero_add]

/-- A command with nothing but what it needs. -/
def plainDelivery : Bus.Delivery where
  subject := "im_provider.outbound.whatsapp.send.text.v1"
  metadata := [("routing_key", "im_provider.outbound.whatsapp.send.text.v1")]
  payload := "\x7b\"message_id\":\"m\",\"domain_id\":1\x7d".toUTF8.toList
  id := "1"

def plainRegistry : Registry Handle where
  entries := [{ key := "whatsapp", sender := some ⟨"whatsapp", 0⟩ }]

theorem retryLaw_plainDelivery :
    providerOf? plainDelivery = some "whatsapp" ∧
      Command.ofBytes? plainDelivery.payload = some { messageId := "m", domainId := 1 } ∧
      plainRegistry.sender? "whatsapp" = some ⟨"whatsapp", 0⟩ ∧
      ∃ before last,
        RetryLaw {} sendByScript { messageId := "m", domainId := 1 }
          ⟨.sendText, "whatsapp", ⟨"whatsapp", 0⟩,
            Command.toMessage 0 { messageId := "m", domainId := 1 }⟩
          [{ script := [.unavailable] }] before last
          (handle plainRegistry {} sendByScript 0 .sendText plainDelivery none
            [{ script := [.unavailable] }]) := by
  have hprovider : providerOf? plainDelivery = some "whatsapp" := by decide
  have hcommand : Command.ofBytes? plainDelivery.payload =
      some { messageId := "m", domainId := 1 } := by
    decide +kernel
  have hvalid : Command.validate { messageId := "m", domainId := 1 } = none := by decide
  have hsender : plainRegistry.sender? "whatsapp" = some ⟨"whatsapp", 0⟩ := by decide
  have hretries : ({} : Settings).maxRetries.toNat + 1 < UInt32.size := by decide
  exact ⟨hprovider, hcommand, hsender,
    retryLaw_handle plainRegistry {} sendByScript 0 .sendText plainDelivery _ hprovider hcommand
      hvalid hsender hretries⟩

/-!
## What adapters are given
-/

theorem sends_send (a : Adapter) (op : Operation) (m : Message) (h : a.kind ≠ .logging) :
    (a.send op m).2.kind ≠ .logging ∧ (a.send op m).2.sends = a.sends ++ [(op, m)] := by
  unfold Adapter.send
  cases hkind : a.kind with
  | logging => exact absurd hkind h
  | recording => cases a.script <;> simp
  | scripted => cases a.script <;> simp

/-- An adapter that keeps what it is given got the message once for each answer; no other got it. -/
theorem sends_of_asked {job : Job} {adapters adapters' : List Adapter} {answers : List Answer}
    (h : Asked sendByScript job adapters answers adapters') {a : Adapter}
    (ha : adapters[job.handle.place]? = some a) (hkeeps : a.kind ≠ .logging) :
    (∃ a', adapters'[job.handle.place]? = some a' ∧
      a'.sends = a.sends ++ List.replicate answers.length (job.operation, job.message)) ∧
      ∀ place, place ≠ job.handle.place → adapters'[place]? = adapters[place]? := by
  induction h generalizing a with
  | nil s => exact ⟨⟨a, ha, by simp⟩, fun _ _ => rfl⟩
  | @cons s s' s'' answer rest first others ih =>
      have hset : s' = s.set job.handle.place (a.send job.operation job.message).2 := by
        simp only [sendByScript, Provider.sendThrough, ha] at first
        exact (congrArg Prod.snd first).symm
      rcases sends_send a job.operation job.message hkeeps with ⟨hkind, hsends⟩
      have hthere : s'[job.handle.place]? = some (a.send job.operation job.message).2 := by
        rw [hset]
        rcases List.getElem?_eq_some_iff.mp ha with ⟨hlt, _⟩
        exact List.getElem?_set_self hlt
      rcases ih hthere hkind with ⟨⟨a', ha', hsends'⟩, hothers⟩
      constructor
      · refine ⟨a', ha', ?_⟩
        rw [hsends', hsends, List.length_cons, List.replicate_succ, List.append_assoc,
          List.singleton_append]
      · intro place hplace
        rw [hothers place hplace, hset]
        exact List.getElem?_set_ne (Ne.symm hplace)

end Dispatch
end Courier
