import Courier.Proofs.Json.Texts

/-!
# Documents written and read

A value without floats is written as tokens that are read back, and those tokens are the
document of the value. The main statement is `Document.ofBytes?_toBytes`.
-/

namespace Courier
namespace Json

open Text (Bytes)
open Decimal (Numeral)

namespace Value

inductive FloatFree : Value → Prop where
  | null : FloatFree .null
  | bool (b : Bool) : FloatFree (.bool b)
  | whole (n : Whole) : FloatFree (.number (.whole n))
  | string (s : String) : FloatFree (.string s)
  | array {items : List Value} (free : ∀ v ∈ items, FloatFree v) : FloatFree (.array items)
  | object {members : List (String × Value)} (free : ∀ m ∈ members, FloatFree m.2) :
      FloatFree (.object members)

mutual

def toDocument : Value → Document
  | .null => .null
  | .bool b => .bool b
  | .number x => .number x.numeral
  | .string s => .string (Piece.ofText s)
  | .array items => .array (itemDocuments items)
  | .object members => .object (memberDocuments members)

def itemDocuments : List Value → List Document
  | [] => []
  | v :: rest => toDocument v :: itemDocuments rest

def memberDocuments : List (String × Value) → List (List Piece × Document)
  | [] => []
  | (k, v) :: rest => (Piece.ofText k, toDocument v) :: memberDocuments rest

end

theorem itemDocuments_eq_map (items : List Value) :
    itemDocuments items = items.map toDocument := by
  induction items with
  | nil => rfl
  | cons v rest ih => rw [itemDocuments, ih, List.map_cons]

theorem memberDocuments_eq_map (members : List (String × Value)) :
    memberDocuments members = members.map fun m => (Piece.ofText m.1, m.2.toDocument) := by
  induction members with
  | nil => rfl
  | cons m rest ih => rw [memberDocuments, ih, List.map_cons]

end Value

/-!
## Token lists
-/

namespace Token

def enclosed (first last : Token) : List (List Token) → List Token
  | [] => [first, last]
  | part :: rest => first :: part ++ rest.flatMap (fun part => .comma :: part) ++ [last]

def Readable (ts : List Token) : Prop :=
  ∀ tokens, ∃ r, Reads ⟨tokens, .between⟩ (ts.flatMap octets) r ∧ Rests r (ts.reverse ++ tokens)

theorem readable_nil : Readable [] :=
  fun tokens => ⟨_, .nil _, .between tokens⟩

theorem readable_append_mark {ts ts' : List Token} {t : Token} (h : Readable ts)
    (ht : t.isMark = true) (h' : Readable ts') : Readable (ts ++ t :: ts') := by
  intro tokens
  rcases h tokens with ⟨r, hreads, hrests⟩
  rcases h' (t :: (ts.reverse ++ tokens)) with ⟨r', hreads', hrests'⟩
  refine ⟨r', ?_, ?_⟩
  · rw [List.flatMap_append, List.flatMap_cons]
    exact hreads.append ((reads_mark ht hrests).append hreads')
  · simpa using hrests'

theorem readable_mark_cons {ts : List Token} {t : Token} (ht : t.isMark = true)
    (h : Readable ts) : Readable (t :: ts) :=
  readable_append_mark readable_nil ht h

theorem readable_of_rests {t : Token}
    (h : ∀ tokens, ∃ r, Reads ⟨tokens, .between⟩ t.octets r ∧ Rests r (t :: tokens)) :
    Readable [t] := by
  intro tokens
  simpa using h tokens

theorem readable_text (s : String) : Readable [.string (Piece.ofText s)] :=
  readable_of_rests fun tokens =>
    ⟨_, reads_string (plain_ofText s) (.between tokens), .between _⟩

theorem readable_parts {last : Token} (hlast : last.isMark = true) {parts : List (List Token)}
    (hparts : ∀ ts ∈ parts, Readable ts) {ts : List Token} (h : Readable ts) :
    Readable (ts ++ parts.flatMap (fun part => .comma :: part) ++ [last]) := by
  induction parts generalizing ts with
  | nil =>
      rw [List.flatMap_nil, List.append_nil]
      exact readable_append_mark h hlast readable_nil
  | cons part rest ih =>
      have hpart := hparts part List.mem_cons_self
      have hrest := ih (fun ts hts => hparts ts (List.mem_cons_of_mem _ hts)) hpart
      simpa using readable_append_mark (t := .comma) h rfl hrest

theorem readable_enclosed {first last : Token} (hfirst : first.isMark = true)
    (hlast : last.isMark = true) {parts : List (List Token)}
    (hparts : ∀ ts ∈ parts, Readable ts) : Readable (enclosed first last parts) := by
  cases parts with
  | nil => exact readable_mark_cons hfirst (readable_mark_cons hlast readable_nil)
  | cons part rest =>
      exact readable_mark_cons hfirst (readable_parts hlast
        (fun ts hts => hparts ts (List.mem_cons_of_mem _ hts)) (hparts part List.mem_cons_self))

theorem ofBytes?_of_readable {ts : List Token} (h : Readable ts) :
    ofBytes? (ts.flatMap octets) = some ts := by
  rcases h [] with ⟨r, hreads, hrests⟩
  have hfold : (ts.flatMap octets).foldlM Reading.step {} = some r := hreads
  rw [List.append_nil] at hrests
  rw [ofBytes?, hfold, Option.bind_eq_bind, Option.bind_some, finish_of_rests hrests,
    List.reverse_reverse]

end Token

/-!
## The tokens of a value
-/

namespace Value

def memberPart (m : String × Value) : List Token :=
  .string (Piece.ofText m.1) :: .colon :: m.2.tokens

theorem itemTokens_false (items : List Value) :
    itemTokens false items = (items.map tokens).flatMap fun part => .comma :: part := by
  induction items with
  | nil => rfl
  | cons v rest ih =>
      rw [itemTokens, ih]
      simp

theorem memberTokens_false (members : List (String × Value)) :
    memberTokens false members = (members.map memberPart).flatMap fun part => .comma :: part := by
  induction members with
  | nil => rfl
  | cons m rest ih =>
      rw [memberTokens, ih]
      simp [memberPart]

theorem tokens_array (items : List Value) :
    (Value.array items).tokens = Token.enclosed .openBracket .closeBracket (items.map tokens) := by
  cases items with
  | nil => rfl
  | cons v rest =>
      rw [tokens, itemTokens, itemTokens_false]
      simp [Token.enclosed]

theorem tokens_object (members : List (String × Value)) :
    (Value.object members).tokens =
      Token.enclosed .openBrace .closeBrace (members.map memberPart) := by
  cases members with
  | nil => rfl
  | cons m rest =>
      rw [tokens, memberTokens, memberTokens_false]
      simp [Token.enclosed, memberPart]

theorem readable_tokens {v : Value} (h : v.FloatFree) : Token.Readable v.tokens := by
  induction h with
  | null => exact Token.readable_of_rests Token.reads_null
  | bool b => exact Token.readable_of_rests (Token.reads_bool b)
  | whole n => exact Token.readable_of_rests (Token.reads_integer n.val)
  | string s => exact Token.readable_text s
  | @array items _ ih =>
      rw [tokens_array]
      refine Token.readable_enclosed rfl rfl ?_
      intro ts hts
      rcases List.mem_map.mp hts with ⟨v, hv, rfl⟩
      exact ih v hv
  | @object members _ ih =>
      rw [tokens_object]
      refine Token.readable_enclosed rfl rfl ?_
      intro ts hts
      rcases List.mem_map.mp hts with ⟨m, hm, rfl⟩
      exact Token.readable_append_mark (Token.readable_text m.1) rfl (ih m hm)

end Value

/-!
## Reading the tokens of a value
-/

namespace Document

open Value (memberPart)

theorem foldlM_append_of_foldlM {r r' : Reading} {ts : List Token}
    (h : ts.foldlM Reading.step r = some r') (ts' : List Token) :
    (ts ++ ts').foldlM Reading.step r = ts'.foldlM Reading.step r' := by
  rw [List.foldlM_append, h]
  rfl

/-- The tokens of a value are read where a value may begin, and its document is settled. -/
def Settles (v : Value) : Prop :=
  ∀ stack, v.tokens.foldlM Reading.step ⟨stack, .value⟩ = Reading.settle v.toDocument stack

theorem foldlM_parts {α β : Type} {part : α → List Token} {frame : List β → Open} {doc : α → β}
    {xs : List α} {stack : List Open}
    (h : ∀ x ∈ xs, ∀ done, (Token.comma :: part x).foldlM Reading.step
      ⟨frame done :: stack, .more⟩ = some ⟨frame (doc x :: done) :: stack, .more⟩)
    (done : List β) :
    ((xs.map part).flatMap fun part => .comma :: part).foldlM Reading.step
        ⟨frame done :: stack, .more⟩ =
      some ⟨frame ((xs.map doc).reverse ++ done) :: stack, .more⟩ := by
  induction xs generalizing done with
  | nil => rfl
  | cons x rest ih =>
      have hx := h x List.mem_cons_self done
      have hrest := ih (fun y hy => h y (List.mem_cons_of_mem _ hy)) (doc x :: done)
      rw [List.map_cons, List.flatMap_cons, foldlM_append_of_foldlM hx, hrest, List.map_cons,
        List.reverse_cons, List.append_assoc, List.singleton_append]

theorem foldlM_enclosed {α β : Type} {part : α → List Token} (frame : List β → Open)
    (doc : α → β) {first last : Token} {x : α} {xs : List α} {stack : List Open}
    (hfirst : (first :: part x).foldlM Reading.step ⟨stack, .value⟩ =
      some ⟨frame [doc x] :: stack, .more⟩)
    (h : ∀ x ∈ xs, ∀ done, (Token.comma :: part x).foldlM Reading.step
      ⟨frame done :: stack, .more⟩ = some ⟨frame (doc x :: done) :: stack, .more⟩) :
    (Token.enclosed first last ((x :: xs).map part)).foldlM Reading.step ⟨stack, .value⟩ =
      Reading.step ⟨frame ((x :: xs).map doc).reverse :: stack, .more⟩ last := by
  have hparts := (foldlM_append_of_foldlM hfirst _).trans (foldlM_parts h [doc x])
  rw [List.map_cons, Token.enclosed, foldlM_append_of_foldlM hparts, List.map_cons,
    List.reverse_cons]
  exact Option.bind_fun_some _

theorem foldlM_firstItem {v : Value} (h : Settles v) (stack : List Open) :
    v.tokens.foldlM Reading.step ⟨.array [] :: stack, .firstItem⟩ =
      some ⟨.array [v.toDocument] :: stack, .more⟩ := by
  have hvalue := h (.array [] :: stack)
  cases hts : v.tokens with
  | nil =>
      rw [hts] at hvalue
      cases hvalue
  | cons t rest =>
      have ht : t ≠ .closeBracket := by
        rintro rfl
        rw [hts] at hvalue
        cases hvalue
      rw [hts, List.foldlM_cons] at hvalue
      rw [List.foldlM_cons]
      simpa [Reading.step, ht, Reading.settle] using hvalue

theorem settles_array {items : List Value} (h : ∀ v ∈ items, Settles v) :
    Settles (.array items) := by
  intro stack
  rw [Value.tokens_array, Value.toDocument, Value.itemDocuments_eq_map]
  cases items with
  | nil => simp [Token.enclosed, Reading.step, Reading.begin, Reading.close]
  | cons v rest =>
      rw [foldlM_enclosed .array Value.toDocument]
      · simp [Reading.step, Reading.close]
      · exact foldlM_firstItem (h v List.mem_cons_self) stack
      · exact fun w hw done => h w (List.mem_cons_of_mem _ hw) (.array done :: stack)

theorem foldlM_member {m : String × Value} (h : Settles m.2) {place : Place}
    (hplace : place = .firstKey ∨ place = .key) (done : List (List Piece × Document))
    (stack : List Open) :
    (memberPart m).foldlM Reading.step ⟨.object done :: stack, place⟩ =
      some ⟨.object ((Piece.ofText m.1, m.2.toDocument) :: done) :: stack, .more⟩ := by
  have hv := h (.member done (Piece.ofText m.1) :: stack)
  rcases hplace with rfl | rfl <;>
    simpa [memberPart, Reading.step, Reading.settle] using hv

theorem settles_object {members : List (String × Value)} (h : ∀ m ∈ members, Settles m.2) :
    Settles (.object members) := by
  intro stack
  rw [Value.tokens_object, Value.toDocument, Value.memberDocuments_eq_map]
  cases members with
  | nil => simp [Token.enclosed, Reading.step, Reading.begin, Reading.close]
  | cons m rest =>
      rw [foldlM_enclosed .object fun m : String × Value => (Piece.ofText m.1, m.2.toDocument)]
      · simp [Reading.step, Reading.close]
      · exact foldlM_member (h m List.mem_cons_self) (.inl rfl) [] stack
      · exact fun w hw done => foldlM_member (h w (List.mem_cons_of_mem _ hw)) (.inr rfl) done stack

theorem settles_of_begin {v : Value} {t : Token} (htokens : v.tokens = [t])
    (hbegin : ∀ stack, Reading.begin stack t = Reading.settle v.toDocument stack) :
    Settles v := by
  intro stack
  rw [htokens, List.foldlM_cons]
  exact (Option.bind_fun_some _).trans (hbegin stack)

theorem settles_of_floatFree {v : Value} (h : v.FloatFree) : Settles v := by
  induction h with
  | null => exact settles_of_begin rfl fun _ => rfl
  | bool b => exact settles_of_begin rfl fun _ => rfl
  | whole n => exact settles_of_begin rfl fun _ => rfl
  | string s => exact settles_of_begin rfl fun _ => rfl
  | array _ ih => exact settles_array ih
  | object _ ih => exact settles_object ih

/-- What is written of a value is read as its document. -/
theorem ofBytes?_toBytes {v : Value} (h : v.FloatFree) :
    ofBytes? v.toBytes = some v.toDocument := by
  have htokens : Token.ofBytes? v.toBytes = some v.tokens :=
    Token.ofBytes?_of_readable (Value.readable_tokens h)
  have hfold : v.tokens.foldlM Reading.step {} = some ⟨[], .done v.toDocument⟩ :=
    settles_of_floatFree h []
  rw [ofBytes?, htokens, Option.bind_eq_bind, Option.bind_some, ofTokens?, hfold]
  rfl

end Document
end Json
end Courier
