import Systemstat.Nom.LineLoop
import Systemstat.Text.Decimal
import Systemstat.Data

/-! # Reading procfs

The files as one moment finds them, and the tokens of the parsers: `ws`,
`usize_s` and `word_s`, with one outcome rule for each way they can end, and the
two shapes of item that the procfs loops repeat over lines.
-/

namespace Systemstat.Linux

open Nom Text

variable {α : Type}

abbrev Files := String → IoResult Str

def readFile (files : Files) (path : String) : IoResult Str := files path

/-- The value of a parser that has read a file; its error becomes `InvalidData`. -/
def parsed : IResult α → IoResult α
  | .ok (_, res) => .ok res
  | .error err => .error (.invalidData err)

theorem parsed_yields {p : Parser α} {i rest : Str} {a : α} (h : Yields p i rest a) :
    parsed (p i) = .ok a := by
  rw [h, parsed]

/-- A combinator that takes a parser `inner` and also consumes both leading and
trailing whitespace, returning the output of `inner`. -/
def ws (inner : Parser α) : Parser α := delimited multispace0 inner multispace0

/-- The bytes of a `str`, which are UTF-8 by construction. -/
structure Utf8 where
  chars : Str

def asBytes (s : Str) : Utf8 := ⟨s⟩

def fromUtf8 (bytes : Utf8) : Option Str := some bytes.chars

def usizeS (w : Nat) : Parser (BitVec w) :=
  mapRes (mapRes (map (ws digit1) asBytes) fromUtf8) (unsignedFromStr w)

/-- `c as u8` keeps the low byte of the code point. -/
def asU8 (c : Char) : UInt8 := c.val.toUInt8

def wordS : Parser Str := takeTill (fun c => isSpace (asU8 c))

/-! ## `ws` -/

theorem ws_yields {p : Parser α} {i r : Str} {a : α} (h : Yields p (skip i) r a) :
    Yields (ws p) i (skip r) a :=
  (multispace0_yields i).delimited h (multispace0_yields r)

theorem ws_fails {p : Parser α} {i : Str} (h : Fails p (skip i)) : Fails (ws p) i :=
  (multispace0_yields i).delimited_fails multispace0 h

theorem readsIff_ws {p : Parser α} {i : Str} {c : Prop} (h : ReadsIff p (skip i) c) :
    ReadsIff (ws p) i c := by
  obtain ⟨hc, rest, a, hy⟩ | ⟨hc, hf⟩ := h
  · exact .inl ⟨hc, _, a, ws_yields hy⟩
  · exact .inr ⟨hc, ws_fails hf⟩

/-! ## `usize_s` -/

theorem usizeS_yields {w : Nat} {i ds rest : Str} (hi : skip i = ds ++ rest) (hd : IsDigits ds)
    (hr : ∀ c, rest.head? = some c → c.isDigit = false)
    (hv : Nat.ofDigitChars 10 ds 0 < 2 ^ w) :
    Yields (usizeS w) i (skip rest) (BitVec.ofNat w (Nat.ofDigitChars 10 ds 0)) := by
  have hdigits : Yields digit1 (skip i) rest ds := hi ▸ digit1_yields hd hr
  have hstr : fromUtf8 (asBytes ds) = some ds := rfl
  exact (((ws_yields hdigits).map asBytes).mapRes hstr).mapRes (unsignedFromStr_of_lt hd hv)

theorem usizeS_fails_of_le {w : Nat} {i ds rest : Str} (hi : skip i = ds ++ rest)
    (hd : IsDigits ds) (hr : ∀ c, rest.head? = some c → c.isDigit = false)
    (hv : 2 ^ w ≤ Nat.ofDigitChars 10 ds 0) : Fails (usizeS w) i := by
  have hdigits : Yields digit1 (skip i) rest ds := hi ▸ digit1_yields hd hr
  have hstr : fromUtf8 (asBytes ds) = some ds := rfl
  exact (((ws_yields hdigits).map asBytes).mapRes hstr).mapRes_fails
    (unsignedFromStr_of_le hd hv)

theorem usizeS_decimal {w n : Nat} (hn : n < 2 ^ w) {i rest : Str}
    (hi : skip i = decimal n ++ rest) (hr : ∀ c, rest.head? = some c → c.isDigit = false) :
    Yields (usizeS w) i (skip rest) (BitVec.ofNat w n) := by
  have h := usizeS_yields (w := w) hi (decimal_isDigits n) hr (by rwa [ofDigitChars_decimal])
  rwa [ofDigitChars_decimal] at h

theorem usizeS_toNat {w : Nat} (n : BitVec w) {i rest : Str}
    (hi : skip i = decimal n.toNat ++ rest) (hr : ∀ c, rest.head? = some c → c.isDigit = false) :
    Yields (usizeS w) i (skip rest) n := by
  have h := usizeS_decimal n.isLt hi hr
  rwa [BitVec.ofNat_toNat, BitVec.setWidth_eq] at h

/-! ## Words -/

def isPrintable (c : Char) : Bool := decide (0x21 ≤ c.toNat ∧ c.toNat ≤ 0x7e)

theorem not_isSpace_of_printable {c : Char} (h : isPrintable c = true) :
    isSpace (asU8 c) = false := by
  simp only [isPrintable, decide_eq_true_eq, Char.toNat] at h
  have hbyte : (asU8 c).toNat = c.val.toNat := by
    rw [asU8, UInt32.toNat_toUInt8]
    omega
  have h32 : (32 : UInt8).toNat = 32 := rfl
  have h9 : (9 : UInt8).toNat = 9 := rfl
  simp only [isSpace, Bool.or_eq_false_iff, beq_eq_false_iff_ne, ne_eq, ← UInt8.toNat_inj, hbyte,
    h32, h9]
  omega

theorem not_multispace_of_printable {c : Char} (h : isPrintable c = true) :
    isMultispace c = false := by
  cases hm : isMultispace c with
  | false => rfl
  | true =>
      simp only [isMultispace, Bool.or_eq_true, beq_iff_eq] at hm
      rcases hm with ((rfl | rfl) | rfl) | rfl <;> cases h

theorem wordS_yields {word rest : Str} (hword : ∀ c ∈ word, isSpace (asU8 c) = false)
    (hr : ∀ c, rest.head? = some c → isSpace (asU8 c) = true) :
    Yields wordS (word ++ rest) rest word := by
  have hrun : MaximalRun (fun c => !isSpace (asU8 c)) word rest :=
    ⟨fun c hc => by simp [hword c hc], fun c hc => by simp [hr c hc]⟩
  have h : Yields wordS (word ++ rest) ((word ++ rest).dropWhile fun c => !isSpace (asU8 c))
      ((word ++ rest).takeWhile fun c => !isSpace (asU8 c)) := takeWhile0_yields _ _
  rwa [hrun.takeWhile_append, hrun.dropWhile_append] at h

/-! ## Columns -/

/-- Numeric columns, each after one space and a number of further ones. -/
def columns (cs : List (Nat × Nat)) : Str :=
  cs.flatMap (fun c => spaces (c.1 + 1) ++ decimal c.2)

theorem columns_cons (k n : Nat) (cs : List (Nat × Nat)) :
    columns ((k, n) :: cs) = spaces (k + 1) ++ (decimal n ++ columns cs) := by
  simp [columns]

theorem spaces_head {k : Nat} {t : Str} {c : Char}
    (h : (spaces (k + 1) ++ t).head? = some c) : c = ' ' := by
  rw [spaces, List.replicate_succ, List.cons_append, List.head?_cons, Option.some.injEq] at h
  exact h.symm

theorem columns_head {cs : List (Nat × Nat)} {c : Char} (h : (columns cs).head? = some c) :
    c = ' ' := by
  cases cs with
  | nil => cases h
  | cons x cs => exact spaces_head (columns_cons x.1 x.2 cs ▸ h)

theorem columns_head_not_digit (cs : List (Nat × Nat)) :
    ∀ c, (columns cs).head? = some c → c.isDigit = false :=
  fun _ hc => columns_head hc ▸ rfl

theorem skip_spaces_decimal (k n : Nat) (t : Str) :
    skip (spaces k ++ (decimal n ++ t)) = decimal n ++ t := by
  obtain ⟨d, ds, hd, hm⟩ := isDigits_head (decimal_isDigits n)
  rw [skip_append_of_multispace (spaces_multispace k), hd]
  exact skip_cons_of_not_multispace hm _

theorem skip_columns_cons (k n : Nat) (cs : List (Nat × Nat)) :
    skip (columns ((k, n) :: cs)) = decimal n ++ columns cs := by
  rw [columns_cons, skip_spaces_decimal]

theorem decimal_body (n : Nat) : LineBody (decimal n) :=
  .of_not_multispace fun c hc => not_multispace_of_isDigit ((decimal_isDigits n).2 c hc)

theorem spaces_body (k : Nat) : LineBody (spaces k) := by
  intro c hc
  rw [List.eq_of_mem_replicate hc]
  rfl

theorem columns_body (cs : List (Nat × Nat)) : LineBody (columns cs) := by
  intro c hc
  obtain ⟨x, _, hx⟩ := List.mem_flatMap.mp hc
  rcases List.mem_append.mp hx with hx | hx
  · exact spaces_body _ c hx
  · exact decimal_body _ c hx

theorem usizeS_column {w : Nat} (k : Nat) (n : BitVec w) (cs : List (Nat × Nat)) {i : Str}
    (hi : skip i = skip (columns ((k, n.toNat) :: cs))) :
    Yields (usizeS w) i (skip (columns cs)) n :=
  usizeS_toNat n (hi.trans (skip_columns_cons k n.toNat cs)) (columns_head_not_digit cs)

/-- There are so many columns, and each of them fits a word. -/
def ColumnsFit (w m : Nat) (cs : List (Nat × Nat)) : Prop :=
  m ≤ cs.length ∧ ∀ c ∈ cs.take m, c.2 < 2 ^ w

theorem columnsFit_zero (w : Nat) (cs : List (Nat × Nat)) : ColumnsFit w 0 cs :=
  ⟨Nat.zero_le _, by simp⟩

theorem columnsFit_succ_cons {w m k n : Nat} {cs : List (Nat × Nat)} :
    ColumnsFit w (m + 1) ((k, n) :: cs) ↔ n < 2 ^ w ∧ ColumnsFit w m cs := by
  simp only [ColumnsFit, List.length_cons, Nat.add_le_add_iff_right, List.take_succ_cons,
    List.forall_mem_cons]
  exact and_left_comm

theorem not_columnsFit_succ_nil (w m : Nat) : ¬ ColumnsFit w (m + 1) [] :=
  fun h => absurd h.1 (by simp)

/-- A column that is missing or does not fit is the end, and so is one behind it. -/
theorem readsIff_column {w m : Nat} {cs : List (Nat × Nat)} {i : Str} {f : BitVec w → Parser α}
    (hi : skip i = skip (columns cs))
    (hf : ∀ n cs', ReadsIff (f n) (skip (columns cs')) (ColumnsFit w m cs')) :
    ReadsIff (usizeS w >>= f) i (ColumnsFit w (m + 1) cs) := by
  cases cs with
  | nil =>
      have hdigit : Fails digit1 (skip i) := takeWhile1_fails (by rw [hi]; rfl)
      have hfails : Fails (usizeS w) i :=
        (((ws_fails hdigit).map asBytes).mapRes fromUtf8).mapRes (unsignedFromStr w)
      exact .inr ⟨not_columnsFit_succ_nil w m, hfails.bind f⟩
  | cons c cs =>
      obtain ⟨k, n⟩ := c
      have hskip : skip i = decimal n ++ columns cs := hi.trans (skip_columns_cons k n cs)
      rcases Nat.lt_or_ge n (2 ^ w) with hlt | hge
      · have hread := usizeS_decimal hlt hskip (columns_head_not_digit cs)
        rw [columnsFit_succ_cons, and_iff_right hlt]
        exact .bind hread (hf _ cs)
      · have hfails : Fails (usizeS w) i := usizeS_fails_of_le hskip (decimal_isDigits n)
          (columns_head_not_digit cs) (by rwa [ofDigitChars_decimal])
        rw [columnsFit_succ_cons]
        exact .inr ⟨fun h => absurd h.1 (Nat.not_lt.mpr hge), hfails.bind f⟩

/-! ## Items over lines -/

theorem ws_notLineEnding_isLineItem {h : Str → Option α} (hempty : h [] = none) :
    IsLineItem (mapRes (ws notLineEnding) h) h where
  yields hy hu := (ws_yields hy).mapRes hu
  rejects hy hu := (ws_yields hy).mapRes_fails hu
  stuck hf := (ws_fails hf).mapRes h
  empty := hempty

theorem ws_mapRes_isLineItem {h : Str → Option α} (hempty : h [] = none) :
    IsLineItem (ws (mapRes notLineEnding h)) h where
  yields hy hu := ws_yields (hy.mapRes hu)
  rejects hy hu := ws_fails (hy.mapRes_fails hu)
  stuck hf := ws_fails (hf.mapRes h)
  empty := hempty

/-- An item that has the empty line refused before it is looked at. -/
theorem ws_verify_isLineItem (f : Str → Option α) :
    IsLineItem (mapRes (verify (ws notLineEnding) fun item => !item.isEmpty) f)
      (fun item => if item.isEmpty then none else f item) where
  yields {i r u b} hy hu := by
    cases hempty : u.isEmpty with
    | false =>
        simp only [hempty, Bool.false_eq_true, if_false] at hu
        exact ((ws_yields hy).verify (by rw [hempty]; rfl)).mapRes hu
    | true =>
        simp only [hempty, if_true] at hu
        cases hu
  rejects {i r u} hy hu := by
    cases hempty : u.isEmpty with
    | false =>
        simp only [hempty, Bool.false_eq_true, if_false] at hu
        exact ((ws_yields hy).verify (by rw [hempty]; rfl)).mapRes_fails hu
    | true => exact ((ws_yields hy).verify_fails (by rw [hempty]; rfl)).mapRes _
  stuck hf := ((ws_fails hf).verify _).mapRes _
  empty := rfl

end Systemstat.Linux
