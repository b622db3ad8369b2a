import Courier.Message.Basic
import Courier.Provider.Error
import Courier.Routing.Operation

/-!
# Adapters

Adapters by which providers are reached. An adapter acts by a script, one entry
for each use, and succeeds when none is left. It keeps what it was given.
-/

namespace Courier
namespace Provider

open Text (Bytes)

inductive Outcome where
  | success
  | failure (e : Error)
  | panic (reason : String)
deriving DecidableEq, Repr, Inhabited

structure Answer where
  after : Nat := 0
  outcome : Outcome := .success
deriving DecidableEq, Repr, Inhabited

inductive Act where
  | answer (a : Answer)
  | namedPanic
deriving DecidableEq, Repr, Inhabited

inductive AdapterKind where
  | recording
  | scripted
  | logging
deriving DecidableEq, Repr, Inhabited

structure Adapter where
  kind : AdapterKind := .recording
  script : List Act := []
  /-- The messages sent, in order. -/
  sends : List (Operation × Message) := []
  /-- The webhook bodies received, in order. -/
  webhooks : List Bytes := []
  /-- With what a recording adapter refuses webhooks. -/
  webhookFault : Option String := none
deriving Repr, Inhabited

def kindName : Operation → String
  | .sendText => "Text"
  | .sendImage => "Image"
  | .sendDocument => "Document"

namespace Act

def unavailable : Act :=
  .answer { outcome := .failure (Error.retryable "platform_unavailable" "scripted failure") }

def rejected : Act :=
  .answer { outcome := .failure (Error.permanent "platform_rejected" "scripted failure") }

def delay (ms : Nat) : Act :=
  .answer { after := ms }

def later (ms : Nat) : Act → Act
  | .answer a => .answer { a with after := ms + a.after }
  | .namedPanic => .namedPanic

end Act

def Act.toAnswer (op : Operation) : Act → Answer
  | .answer a => a
  | .namedPanic => { outcome := .panic ("scripted panic in " ++ kindName op) }

namespace Adapter

/-- Gives a message to an adapter. An adapter that only logs keeps nothing. -/
def send (a : Adapter) (op : Operation) (m : Message) : Answer × Adapter :=
  match a.kind with
  | .logging => ({}, a)
  | _ =>
    let a := { a with sends := a.sends ++ [(op, m)] }
    match a.script with
    | [] => ({}, a)
    | act :: rest => (act.toAnswer op, { a with script := rest })

def receive (a : Adapter) (body : Bytes) : Answer × Adapter :=
  match a.kind with
  | .logging => ({}, a)
  | .recording =>
    let outcome : Outcome :=
      match a.webhookFault with
      | some text => .failure (Error.permanent "webhook_rejected" text)
      | none => .success
    ({ outcome := outcome }, { a with webhooks := a.webhooks ++ [body] })
  | .scripted =>
    match a.script with
    | [] => ({}, a)
    | act :: rest => (act.toAnswer .sendText, { a with script := rest })

end Adapter

/-- An adapter among others: the type it reports, and its place. -/
structure Handle where
  reported : String
  place : Nat
deriving DecidableEq, Repr, Inhabited

def sendThrough (adapters : List Adapter) (h : Handle) (op : Operation) (m : Message) :
    Answer × List Adapter :=
  match adapters[h.place]? with
  | none => ({}, adapters)
  | some a =>
    let (answer, a) := a.send op m
    (answer, adapters.set h.place a)

def receiveThrough (adapters : List Adapter) (h : Handle) (body : Bytes) :
    Answer × List Adapter :=
  match adapters[h.place]? with
  | none => ({}, adapters)
  | some a =>
    let (answer, a) := a.receive body
    (answer, adapters.set h.place a)

end Provider
end Courier
