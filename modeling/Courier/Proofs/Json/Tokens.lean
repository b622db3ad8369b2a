import Courier.Json.Printer
import Courier.Proofs.Decimal.Digits
import Courier.Proofs.Text.Utf8

/-!
# Tokens written and read

The octets of a token are read back as that token. A string ends with its quote; a word
or a number ends where an octet follows that cannot go on with it.
-/

namespace Courier
namespace Json

open Text (Bytes)
open Decimal (Numeral digitsOf)

namespace Token

def Reads (r : Reading) (octets : Bytes) (r' : Reading) : Prop :=
  octets.foldlM Reading.step r = some r'

theorem Reads.nil (r : Reading) : Reads r [] r := rfl

theorem Reads.cons {r r' r'' : Reading} {b : UInt8} {octets : Bytes}
    (h : r.step b = some r') (h' : Reads r' octets r'') : Reads r (b :: octets) r'' := by
  unfold Reads at h' ⊢
  rw [List.foldlM_cons, h]
  exact h'

theorem Reads.append {r r' r'' : Reading} {octets more : Bytes} (h : Reads r octets r')
    (h' : Reads r' more r'') : Reads r (octets ++ more) r'' := by
  unfold Reads at h h' ⊢
  rw [List.foldlM_append, h]
  exact h'

/-- These tokens were read, latest first; the last may still go on. -/
inductive Rests : Reading → List Token → Prop where
  | between (tokens : List Token) : Rests ⟨tokens, .between⟩ tokens
  | word {seen : Bytes} {t : Token} (tokens : List Token) (read : word? seen.reverse = some t) :
      Rests ⟨tokens, .word seen⟩ (t :: tokens)
  | number {seen : Bytes} {x : Numeral} (tokens : List Token)
      (read : numeral? seen.reverse = some x) :
      Rests ⟨tokens, .number seen⟩ (.number x :: tokens)

theorem finish_of_rests {r : Reading} {tokens : List Token} (h : Rests r tokens) :
    r.finish = some tokens.reverse := by
  cases h with
  | between tokens => rfl
  | word tokens read => simp [Reading.finish, read]
  | number tokens read => simp [Reading.finish, read]

/-- What goes on with no word or number begins something new. -/
theorem step_of_rests {r : Reading} {tokens : List Token} {b : UInt8} (h : Rests r tokens)
    (hletter : isLetter b = false) (hnumeric : isNumeric b = false) :
    r.step b = Reading.start tokens b := by
  cases h with
  | between tokens => rfl
  | word tokens read => simp [Reading.step, hletter, read]
  | number tokens read => simp [Reading.step, hnumeric, read]

/-!
## Marks and words
-/

def isMark : Token → Bool
  | .openBrace | .closeBrace | .openBracket | .closeBracket | .colon | .comma => true
  | _ => false

theorem reads_mark {r : Reading} {tokens : List Token} {t : Token} (ht : t.isMark = true)
    (h : Rests r tokens) : Reads r t.octets ⟨t :: tokens, .between⟩ := by
  cases t with
  | openBrace => exact .cons ((step_of_rests h rfl rfl).trans rfl) (.nil _)
  | closeBrace => exact .cons ((step_of_rests h rfl rfl).trans rfl) (.nil _)
  | openBracket => exact .cons ((step_of_rests h rfl rfl).trans rfl) (.nil _)
  | closeBracket => exact .cons ((step_of_rests h rfl rfl).trans rfl) (.nil _)
  | colon => exact .cons ((step_of_rests h rfl rfl).trans rfl) (.nil _)
  | comma => exact .cons ((step_of_rests h rfl rfl).trans rfl) (.nil _)
  | null => cases ht
  | bool b => cases ht
  | number x => cases ht
  | string pieces => cases ht

theorem octets_null : Token.null.octets = [0x6E, 0x75, 0x6C, 0x6C] := by
  decide +kernel

theorem octets_true : (Token.bool true).octets = [0x74, 0x72, 0x75, 0x65] := by
  decide +kernel

theorem octets_false : (Token.bool false).octets = [0x66, 0x61, 0x6C, 0x73, 0x65] := by
  decide +kernel

theorem reads_null (tokens : List Token) :
    ∃ r, Reads ⟨tokens, .between⟩ Token.null.octets r ∧ Rests r (.null :: tokens) := by
  rw [octets_null]
  refine ⟨⟨tokens, .word [0x6C, 0x6C, 0x75, 0x6E]⟩, rfl, .word _ ?_⟩
  decide +kernel

theorem reads_bool (b : Bool) (tokens : List Token) :
    ∃ r, Reads ⟨tokens, .between⟩ (Token.bool b).octets r ∧ Rests r (.bool b :: tokens) := by
  cases b with
  | true =>
      rw [octets_true]
      refine ⟨⟨tokens, .word [0x65, 0x75, 0x72, 0x74]⟩, rfl, .word _ ?_⟩
      decide +kernel
  | false =>
      rw [octets_false]
      refine ⟨⟨tokens, .word [0x65, 0x73, 0x6C, 0x61, 0x66]⟩, rfl, .word _ ?_⟩
      decide +kernel

/-!
## Integers
-/

theorem digitOctet_spec {d : Nat} (h : d < 10) :
    digit? (digitOctet d) = some d ∧ digitOctet d ≠ 0x2D ∧ isBlank (digitOctet d) = false ∧
      digitOctet d ≠ 0x22 ∧ isLetter (digitOctet d) = false := by
  have hall : ∀ d < 10, digit? (digitOctet d) = some d ∧ digitOctet d ≠ 0x2D ∧
      isBlank (digitOctet d) = false ∧ digitOctet d ≠ 0x22 ∧
      isLetter (digitOctet d) = false := by
    decide
  exact hall d h

theorem digit?_digitOctet {d : Nat} (h : d < 10) : digit? (digitOctet d) = some d :=
  (digitOctet_spec h).left

theorem isNumeric_digitOctet {d : Nat} (h : d < 10) : isNumeric (digitOctet d) = true := by
  simp [isNumeric, digit?_digitOctet h]

theorem takeDigits_map {digits : List Nat} (h : ∀ d ∈ digits, d < 10) :
    takeDigits (digits.map digitOctet) = (digits, []) := by
  induction digits with
  | nil => rfl
  | cons d rest ih =>
      have hd := digit?_digitOctet (h d List.mem_cons_self)
      have hrest := ih fun d' hd' => h d' (List.mem_cons_of_mem _ hd')
      simp only [takeDigits, Prod.mk.injEq] at hrest ⊢
      simp [hd, hrest]

theorem numeralOctets_ofInt (n : Int) :
    numeralOctets (Numeral.ofInt n) =
      signOctets (decide (n < 0)) ++ (digitsOf n.natAbs).map digitOctet := by
  simp [numeralOctets, Numeral.ofInt]

theorem numeral?_of_digits (negative : Bool) {d : Nat} {rest : List Nat}
    (hdigits : ∀ e ∈ d :: rest, e < 10) (hzero : d = 0 → rest = []) :
    numeral? (signOctets negative ++ (d :: rest).map digitOctet) =
      some ⟨negative, d :: rest, [], none⟩ := by
  have htake := takeDigits_map hdigits
  have hminus := (digitOctet_spec (hdigits d List.mem_cons_self)).right.left
  have hleading : ((d :: rest).head? == some 0 && (d :: rest).length != 1) = false := by
    simpa using hzero
  have hwhole : ((d :: rest).isEmpty ||
      ((d :: rest).head? == some 0 && (d :: rest).length != 1)) = false := by
    rw [hleading]
    rfl
  cases negative with
  | true =>
      simp only [signOctets, if_true, List.cons_append, List.nil_append, numeral?, htake, hwhole]
      rfl
  | false =>
      simp only [signOctets, Bool.false_eq_true, if_false, List.nil_append, numeral?]
      split
      · next heq =>
          exact absurd (List.cons.inj heq).left hminus
      · simp only [htake, hwhole]
        rfl

theorem reads_numeric {tokens : List Token} {octets : Bytes}
    (h : ∀ b ∈ octets, isNumeric b = true) (seen : Bytes) :
    Reads ⟨tokens, .number seen⟩ octets ⟨tokens, .number (octets.reverse ++ seen)⟩ := by
  induction octets generalizing seen with
  | nil => exact .nil _
  | cons b rest ih =>
      have hstep : Reading.step ⟨tokens, .number seen⟩ b = some ⟨tokens, .number (b :: seen)⟩ := by
        simp [Reading.step, h b List.mem_cons_self]
      rw [List.reverse_cons, List.append_assoc, List.singleton_append]
      exact .cons hstep (ih (fun b' hb' => h b' (List.mem_cons_of_mem _ hb')) (b :: seen))

theorem start_digitOctet {d : Nat} (h : d < 10) (tokens : List Token) :
    Reading.start tokens (digitOctet d) = some ⟨tokens, .number [digitOctet d]⟩ := by
  rcases digitOctet_spec h with ⟨_, _, hblank, hquote, hletter⟩
  simp [Reading.start, hblank, hquote, hletter, isNumeric_digitOctet h]

theorem reads_of_head {tokens : List Token} {b : UInt8} {rest : Bytes}
    (hstart : Reading.start tokens b = some ⟨tokens, .number [b]⟩)
    (hrest : ∀ b ∈ rest, isNumeric b = true) :
    Reads ⟨tokens, .between⟩ (b :: rest) ⟨tokens, .number (b :: rest).reverse⟩ := by
  rw [List.reverse_cons]
  exact .cons hstart (reads_numeric hrest [b])

theorem reads_integer (n : Int) (tokens : List Token) :
    ∃ r, Reads ⟨tokens, .between⟩ (Token.number (Numeral.ofInt n)).octets r ∧
      Rests r (.number (Numeral.ofInt n) :: tokens) := by
  rcases Decimal.exists_head_digitsOf n.natAbs with ⟨d, rest, hdigits, hzero⟩
  have hsmall : ∀ e ∈ d :: rest, e < 10 := by
    intro e he
    rw [← hdigits] at he
    exact Decimal.lt_of_mem_digitsOf he
  have hread := numeral?_of_digits (decide (n < 0)) hsmall fun hd => (hzero hd).right
  have hnumeric : ∀ digits : List Nat, (∀ e ∈ digits, e ∈ d :: rest) →
      ∀ b ∈ digits.map digitOctet, isNumeric b = true := by
    intro digits hmem b hb
    rcases List.mem_map.mp hb with ⟨e, he, rfl⟩
    exact isNumeric_digitOctet (hsmall e (hmem e he))
  have hoctets : (Token.number (Numeral.ofInt n)).octets =
      signOctets (decide (n < 0)) ++ (d :: rest).map digitOctet := by
    rw [← hdigits]
    exact numeralOctets_ofInt n
  have hnumeral : Numeral.ofInt n = ⟨decide (n < 0), d :: rest, [], none⟩ := by
    rw [Numeral.ofInt, hdigits]
  rw [hoctets, hnumeral]
  refine ⟨⟨tokens, .number (signOctets (decide (n < 0)) ++
    (d :: rest).map digitOctet).reverse⟩, ?_, .number _ ?_⟩
  · cases decide (n < 0) with
    | true => exact reads_of_head rfl (hnumeric _ fun e he => he)
    | false =>
        exact reads_of_head (start_digitOctet (hsmall d List.mem_cons_self) tokens)
          (hnumeric rest fun e he => List.mem_cons_of_mem _ he)
  · rw [List.reverse_reverse]
    exact hread

/-!
## Strings
-/

/-- A piece that is written so that it is read back: any octet that is no bare control
character, and any code unit of 16 bits. -/
inductive Plain : Piece → Prop where
  | octet {b : UInt8} (visible : Piece.letter? b = none → 0x20 ≤ b) : Plain (.octet b)
  | unit {code : Nat} (range : code < 0x10000) : Plain (.unit code)

theorem escaped?_of_letter? {b letter : UInt8} (h : Piece.letter? b = some letter) :
    escaped? letter = some b ∧ letter ≠ 0x75 := by
  unfold Piece.letter? at h
  split at h <;> cases h <;> exact ⟨rfl, by decide⟩

theorem ne_of_letter?_none {b : UInt8} (h : Piece.letter? b = none) : b ≠ 0x22 ∧ b ≠ 0x5C := by
  constructor
  · rintro rfl
    cases h
  · rintro rfl
    cases h

theorem hexDigit?_hexDigit {d : Nat} (h : d < 16) : hexDigit? (Piece.hexDigit d) = some d := by
  have hall : ∀ d < 16, hexDigit? (Piece.hexDigit d) = some d := by decide
  exact hall d h

theorem reads_piece {p : Piece} (hp : Plain p) (tokens : List Token) (seen : List Piece) :
    Reads ⟨tokens, .string seen⟩ p.octets ⟨tokens, .string (p :: seen)⟩ := by
  cases hp with
  | @octet b visible =>
      cases hletter : Piece.letter? b with
      | none =>
          rcases ne_of_letter?_none hletter with ⟨hquote, hbackslash⟩
          have hcontrol : ¬ b < 0x20 := UInt8.not_lt.mpr (visible hletter)
          have hstep : Reading.step ⟨tokens, .string seen⟩ b =
              some ⟨tokens, .string (.octet b :: seen)⟩ := by
            simp [Reading.step, hquote, hbackslash, hcontrol]
          simp only [Piece.octets, hletter]
          exact .cons hstep (.nil _)
      | some letter =>
          rcases escaped?_of_letter? hletter with ⟨hescaped, hunit⟩
          have hstep : Reading.step ⟨tokens, .escape seen⟩ letter =
              some ⟨tokens, .string (.octet b :: seen)⟩ := by
            simp [Reading.step, hunit, hescaped]
          simp only [Piece.octets, hletter]
          exact .cons rfl (.cons hstep (.nil _))
  | @unit code range =>
      have hdigit : ∀ d value owed, d < 16 → 1 < owed →
          Reading.step ⟨tokens, .unit seen value owed⟩ (Piece.hexDigit d) =
            some ⟨tokens, .unit seen (value * 16 + d) (owed - 1)⟩ := by
        intro d value owed hd howed
        simp only [Reading.step, hexDigit?_hexDigit hd]
        rw [if_neg (by omega)]
      have hlast : ∀ d value, d < 16 → value * 16 + d = code →
          Reading.step ⟨tokens, .unit seen value 1⟩ (Piece.hexDigit d) =
            some ⟨tokens, .string (.unit code :: seen)⟩ := by
        intro d value hd hcode
        simp only [Reading.step, hexDigit?_hexDigit hd, hcode]
        rfl
      refine .cons rfl (.cons rfl (.cons (hdigit _ 0 4 ?_ ?_) (.cons (hdigit _ _ 3 ?_ ?_)
        (.cons (hdigit _ _ 2 ?_ ?_) (.cons (hlast _ _ ?_ ?_) (.nil _))))))
      all_goals omega

theorem reads_pieces {pieces : List Piece} (h : ∀ p ∈ pieces, Plain p) (tokens : List Token)
    (seen : List Piece) :
    Reads ⟨tokens, .string seen⟩ (pieces.flatMap Piece.octets)
      ⟨tokens, .string (pieces.reverse ++ seen)⟩ := by
  induction pieces generalizing seen with
  | nil => exact .nil _
  | cons p rest ih =>
      rw [List.flatMap_cons, List.reverse_cons, List.append_assoc, List.singleton_append]
      exact (reads_piece (h p List.mem_cons_self) tokens seen).append
        (ih (fun p' hp' => h p' (List.mem_cons_of_mem _ hp')) (p :: seen))

theorem reads_string {r : Reading} {tokens : List Token} {pieces : List Piece}
    (h : ∀ p ∈ pieces, Plain p) (hr : Rests r tokens) :
    Reads r (Token.string pieces).octets ⟨.string pieces :: tokens, .between⟩ := by
  have hopen : r.step 0x22 = some ⟨tokens, .string []⟩ := (step_of_rests hr rfl rfl).trans rfl
  have hpieces := reads_pieces h tokens []
  have hclose : Reading.step ⟨tokens, .string (pieces.reverse ++ [])⟩ 0x22 =
      some ⟨.string pieces :: tokens, .between⟩ := by
    simp [Reading.step]
  exact .cons hopen (hpieces.append (.cons hclose (.nil _)))

end Token
end Json
end Courier
