import Mathlib.Data.List.Forall2
import Mathlib.Data.List.TakeWhile

namespace VideoAdapter.Lib

-- Statements that a C program builds with its arguments between single quotes, and how a MySQL
-- server reads them.
def quote : Char := '\x27'

def backslash : Char := '\x5c'

def nul : Char := '\x00'

-- The character that a letter after a backslash stands for.
def escaped (c : Char) : Char :=
  if c = '0' then nul
  else if c = 'b' then Char.ofNat 8
  else if c = 't' then Char.ofNat 9
  else if c = 'n' then Char.ofNat 10
  else if c = 'r' then Char.ofNat 13
  else if c = 'Z' then Char.ofNat 26
  else c

-- The two wildcards of LIKE keep their backslash.
def unescape (c : Char) : List Char :=
  if c = '%' ∨ c = '_' then [backslash, c] else [escaped c]

def push (before : List Char) (out : List Char × List Char) : List Char × List Char :=
  (before ++ out.1, out.2)

-- Reads a literal after its opening quote: its value and the text after its closing quote. A quote
-- ends it unless it is doubled or escaped.
def literal : List Char → Option (List Char × List Char)
  | [] => none
  | [c] => if c = quote then some ([], []) else none
  | c :: d :: rest =>
      if c = quote then
        if d = quote then (literal rest).map (push [quote]) else some ([], d :: rest)
      else if c = backslash then (literal rest).map (push (unescape d))
      else (literal (d :: rest)).map (push [c])

-- A text that stands for itself in a literal: no quote, and each backslash before a wildcard.
def safe : List Char → Bool
  | [] => true
  | [c] => c ≠ quote && c ≠ backslash
  | c :: d :: rest =>
      if c = quote then false
      else if c = backslash then (d = '%' || d = '_') && safe rest
      else safe (d :: rest)

-- A text after a literal that neither goes on with it nor could be taken for a NUL in it.
def Apart (t : List Char) : Prop :=
  ∀ c ∈ t.head?, c ≠ quote ∧ c ≠ backslash ∧ c ≠ nul ∧ c ≠ '0'

variable {a t z out rest input : List Char} {c d : Char}

@[simp] theorem literal_quote (h : Apart t) : literal (quote :: t) = some ([], t) := by
  cases t with
  | nil => rfl
  | cons d rest =>
      have hd : d ≠ quote := (h d rfl).1
      simp [literal, hd]

theorem literal_cons (hq : c ≠ quote) (hb : c ≠ backslash) (d : Char) (rest : List Char) :
    literal (c :: d :: rest) = (literal (d :: rest)).map (push [c]) := by
  simp [literal, hq, hb]

theorem safe_cons (hq : c ≠ quote) (hb : c ≠ backslash) : safe (c :: a) = safe a := by
  cases a with
  | nil => simp [safe, hq, hb]
  | cons d rest => simp [safe, hq, hb]

-- A safe text is read back as it is.
theorem literal_of_safe (ha : safe a) (ht : Apart t) : literal (a ++ quote :: t) = some (a, t) := by
  induction a using safe.induct with
  | case1 => exact literal_quote ht
  | case2 c =>
      simp only [safe, Bool.and_eq_true, decide_eq_true_eq] at ha
      rw [List.cons_append, List.nil_append, literal_cons ha.1 ha.2, literal_quote ht]
      rfl
  | case3 d rest =>
      simp [safe] at ha
  | case4 d rest hne ih =>
      simp only [safe, if_neg hne, if_true, Bool.and_eq_true, Bool.or_eq_true,
        decide_eq_true_eq] at ha
      have hliteral : literal (backslash :: d :: (rest ++ quote :: t)) =
          (literal (rest ++ quote :: t)).map (push (unescape d)) := by
        simp [literal, hne]
      rw [List.cons_append, List.cons_append, hliteral, ih ha.2, unescape, if_pos ha.1]
      rfl
  | case5 c d rest hq hb ih =>
      rw [safe_cons hq hb] at ha
      have hrest := ih ha
      rw [List.cons_append] at hrest
      rw [List.cons_append, List.cons_append, literal_cons hq hb, hrest]
      rfl

def other (c : Char) : Bool := c ≠ quote && c ≠ backslash

-- A character of a value and the character of the text that it was read from.
def ReadFrom (value text : Char) : Prop := value = text ∨ value = escaped text

theorem other_escaped (c : Char) : other (escaped c) = other c := by
  unfold escaped
  split_ifs with h0 hb ht hn hr hz
  · subst h0
    decide
  · subst hb
    decide
  · subst ht
    decide
  · subst hn
    decide
  · subst hr
    decide
  · subst hz
    decide
  · rfl

@[simp] theorem filter_quote (l : List Char) : (quote :: l).filter other = l.filter other := rfl

@[simp] theorem filter_backslash (l : List Char) :
    (backslash :: l).filter other = l.filter other := rfl

-- What a literal reads, with its closing quote, and its value: apart from quotes and backslashes
-- they have the same characters, and the value is shorter unless the text stands for itself.
structure Decoded (text value : List Char) : Prop where
  others : List.Forall₂ ReadFrom (value.filter other) (text.filter other)
  shorter : value.length + 1 ≤ text.length
  itself : text.length = value.length + 1 → text = value ++ [quote] ∧ safe value

theorem decoded_nil : Decoded [quote] [] := ⟨.nil, by simp, fun _ => ⟨rfl, rfl⟩⟩

theorem Decoded.doubled {text value : List Char} (h : Decoded text value) :
    Decoded (quote :: quote :: text) (quote :: value) where
  others := by simpa using h.others
  shorter := by
    have := h.shorter
    simp only [List.length_cons]
    omega
  itself hlen := by
    have := h.shorter
    simp only [List.length_cons] at hlen
    omega

theorem Decoded.wildcard {text value : List Char} (h : Decoded text value) (hd : d = '%' ∨ d = '_') :
    Decoded (backslash :: d :: text) (backslash :: d :: value) where
  others := by
    have hother : other d = true := by rcases hd with rfl | rfl <;> decide
    rw [filter_backslash, filter_backslash, List.filter_cons_of_pos hother,
      List.filter_cons_of_pos hother]
    exact .cons (.inl rfl) h.others
  shorter := by
    have := h.shorter
    simp only [List.length_cons]
    omega
  itself hlen := by
    obtain ⟨htext, hsafe⟩ := h.itself (by simpa using hlen)
    have hne : backslash ≠ quote := by decide
    exact ⟨by rw [htext]; rfl, by simp [safe, hne, hd, hsafe]⟩

theorem Decoded.escape {text value : List Char} (h : Decoded text value) (d : Char) :
    Decoded (backslash :: d :: text) (escaped d :: value) where
  others := by
    rw [filter_backslash]
    cases hd : other d with
    | true =>
        rw [List.filter_cons_of_pos hd, List.filter_cons_of_pos ((other_escaped d).trans hd)]
        exact .cons (.inr rfl) h.others
    | false =>
        have hescaped : ¬ other (escaped d) = true := by rw [other_escaped, hd]; decide
        rw [List.filter_cons_of_neg hescaped, List.filter_cons_of_neg (Bool.eq_false_iff.mp hd)]
        exact h.others
  shorter := by
    have := h.shorter
    simp only [List.length_cons]
    omega
  itself hlen := by
    have := h.shorter
    simp only [List.length_cons] at hlen
    omega

theorem Decoded.cons {text value : List Char} (h : Decoded text value) (hq : c ≠ quote)
    (hb : c ≠ backslash) : Decoded (c :: text) (c :: value) where
  others := by
    have hother : other c = true := by simp [other, hq, hb]
    rw [List.filter_cons_of_pos hother, List.filter_cons_of_pos hother]
    exact .cons (.inl rfl) h.others
  shorter := by
    have := h.shorter
    simp only [List.length_cons]
    omega
  itself hlen := by
    obtain ⟨htext, hsafe⟩ := h.itself (by simpa using hlen)
    exact ⟨by rw [htext]; rfl, by rw [safe_cons hq hb, hsafe]⟩

theorem decoded_of_literal (h : literal input = some (out, rest)) :
    ∃ text, input = text ++ rest ∧ Decoded text out := by
  induction input using literal.induct generalizing out with
  | case1 => cases h
  | case2 =>
      simp only [literal, if_true, Option.some.injEq, Prod.mk.injEq] at h
      obtain ⟨rfl, rfl⟩ := h
      exact ⟨_, (List.append_nil _).symm, decoded_nil⟩
  | case3 c hq => simp [literal, hq] at h
  | case4 tail ih =>
      simp only [literal, if_true] at h
      obtain ⟨⟨value, last⟩, hl, he⟩ := Option.map_eq_some_iff.mp h
      cases he
      obtain ⟨text, rfl, hdecoded⟩ := ih hl
      exact ⟨_, rfl, hdecoded.doubled⟩
  | case5 d tail hq =>
      simp only [literal, if_true, if_neg hq, Option.some.injEq, Prod.mk.injEq] at h
      obtain ⟨rfl, rfl⟩ := h
      exact ⟨[quote], rfl, decoded_nil⟩
  | case6 d tail hq ih =>
      simp only [literal, if_neg hq, if_true] at h
      obtain ⟨⟨value, last⟩, hl, he⟩ := Option.map_eq_some_iff.mp h
      cases he
      obtain ⟨text, rfl, hdecoded⟩ := ih hl
      refine ⟨backslash :: d :: text, rfl, ?_⟩
      unfold unescape
      split_ifs with hd
      · exact hdecoded.wildcard hd
      · exact hdecoded.escape d
  | case7 c d tail hq hb ih =>
      rw [literal_cons hq hb] at h
      obtain ⟨⟨value, last⟩, hl, he⟩ := Option.map_eq_some_iff.mp h
      cases he
      obtain ⟨text, htext, hdecoded⟩ := ih hl
      exact ⟨c :: text, by rw [htext]; rfl, hdecoded.cons hq hb⟩

theorem literal_length_lt (h : literal input = some (out, rest)) : rest.length < input.length := by
  obtain ⟨text, rfl, hdecoded⟩ := decoded_of_literal h
  have := hdecoded.shorter
  rw [List.length_append]
  omega

theorem escaped_eq_nul (h : escaped c = nul) : c = nul ∨ c = '0' := by
  unfold escaped at h
  split_ifs at h with h0
  · exact .inr h0
  all_goals first
    | exact .inl h
    | exact absurd h (by decide)

-- Only a safe text is read back as it is. `z` is the part of an argument that its NUL cut off.
theorem literal_eq_self (h : literal (a ++ quote :: t) = some (a ++ z, rest)) (ht : Apart t)
    (hz : ∀ c ∈ z.head?, c = nul) : z = [] ∧ safe a ∧ rest = t := by
  obtain ⟨text, hsplit, hdecoded⟩ := decoded_of_literal h
  have hlen := hdecoded.shorter
  rw [List.length_append] at hlen
  have hclosed : (a ++ [quote]) ++ t = text ++ rest := by rw [← hsplit]; simp
  rcases List.append_eq_append_iff.mp hclosed with ⟨more, hmore, hrest⟩ | ⟨left, hleft, hrest⟩
  · cases more with
    | nil =>
        rw [List.append_nil] at hmore
        have hz0 : z = [] := by
          rw [hmore, List.length_append, List.length_singleton] at hlen
          exact List.length_eq_zero_iff.mp (by omega)
        subst hz0
        rw [List.append_nil] at hdecoded
        exact ⟨rfl, (hdecoded.itself (by rw [hmore]; simp)).2, hrest.symm⟩
    | cons c more =>
        -- the quote after the argument did not close the literal, which goes on with `c`
        exfalso
        obtain ⟨hq, hb, hnul, hzero⟩ := ht c (by rw [hrest]; rfl)
        have hother : other c = true := by simp [other, hq, hb]
        have hall := List.forall₂_drop (a.filter other).length hdecoded.others
        rw [hmore, List.filter_append, List.filter_append, List.filter_append, List.drop_left,
          List.append_assoc, List.drop_left, filter_quote, List.filter_nil, List.nil_append,
          List.filter_cons_of_pos hother] at hall
        cases z with
        | nil => cases hall
        | cons d z =>
            obtain rfl := hz d rfl
            have hd : other nul = true := by decide
            rw [List.filter_cons_of_pos hd] at hall
            cases hall with
            | cons hread _ =>
                rcases hread with heq | heq
                · exact hnul heq.symm
                · exact (escaped_eq_nul heq.symm).elim hnul hzero
  · have hshort := congrArg List.length hleft
    simp only [List.length_append, List.length_singleton] at hshort
    have hz0 : z = [] := List.length_eq_zero_iff.mp (by omega)
    have hleft0 : left = [] := List.length_eq_zero_iff.mp (by omega)
    subst hz0 hleft0
    rw [List.append_nil] at hdecoded hleft
    exact ⟨rfl, (hdecoded.itself (by rw [← hleft]; simp)).2, hrest⟩

-- A statement as its reader takes it apart. Outside the literals every character counts.
inductive Token where
  | plain (c : Char)
  | literal (value : List Char)
deriving DecidableEq, Repr

def tokenise : List Char → Option (List Token)
  | [] => some []
  | c :: rest =>
      if c = quote then
        match _h : literal rest with
        | none => none
        | some (value, after) => (tokenise after).map (.literal value :: ·)
      else (tokenise rest).map (.plain c :: ·)
termination_by input => input.length
decreasing_by
  · have := literal_length_lt _h
    simp only [List.length_cons]
    omega
  · simp

def Token.value? : Token → Option (List Char)
  | .plain _ => none
  | .literal value => some value

-- The literals of a statement, in order.
def values (tokens : List Token) : List (List Char) := tokens.filterMap Token.value?

theorem values_plain (s : List Char) (tokens : List Token) :
    values (s.map .plain ++ tokens) = values tokens := by
  induction s with
  | nil => rfl
  | cons c s ih => exact ih

theorem tokenise_quote (rest : List Char) :
    tokenise (quote :: rest) =
      (literal rest).bind fun out => (tokenise out.2).map (.literal out.1 :: ·) := by
  rw [tokenise, if_pos rfl]
  split
  · rename_i h
    rw [h]
    rfl
  · rename_i h
    rw [h]
    rfl

theorem tokenise_append (s rest : List Char) (hs : quote ∉ s) :
    tokenise (s ++ rest) = (tokenise rest).map (s.map .plain ++ ·) := by
  induction s with
  | nil => simp
  | cons c s ih =>
      have hc : c ≠ quote := fun heq => hs (heq ▸ List.mem_cons_self)
      rw [List.cons_append, tokenise, if_neg hc, ih fun hmem => hs (List.mem_cons_of_mem _ hmem),
        Option.map_map]
      rfl

-- A statement in the making: its own text, and the arguments that stand between quotes.
inductive Piece where
  | text (s : List Char)
  | quoted (arg : String)
deriving DecidableEq, Repr

-- The bytes that `%s` copies.
def cut (s : String) : List Char := s.toList.takeWhile (· ≠ nul)

def Piece.chars : Piece → List Char
  | .text s => s
  | .quoted arg => quote :: (cut arg ++ [quote])

def Piece.tokens : Piece → List Token
  | .text s => s.map .plain
  | .quoted arg => [.literal arg.toList]

def Piece.arg? : Piece → Option String
  | .text _ => none
  | .quoted arg => some arg

-- The statement that is sent.
def render (pieces : List Piece) : List Char := pieces.flatMap Piece.chars

-- The statement that is meant: the format with each argument as a value.
def meant (pieces : List Piece) : List Token := pieces.flatMap Piece.tokens

def arguments (pieces : List Piece) : List String := pieces.filterMap Piece.arg?

-- The format's own text has no quote, and after each argument it goes on with something that
-- does not touch the literal.
def Separated : List Piece → Prop
  | [] => True
  | .text s :: rest => quote ∉ s ∧ Separated rest
  | .quoted _ :: rest => Apart (render rest) ∧ Separated rest

-- An argument that can stand between quotes as it is.
def Inert (arg : String) : Prop := nul ∉ arg.toList ∧ safe arg.toList

theorem cut_append (arg : String) :
    ∃ z, arg.toList = cut arg ++ z ∧ (∀ c ∈ z.head?, c = nul) ∧ (z = [] ↔ nul ∉ arg.toList) := by
  refine ⟨arg.toList.dropWhile (· ≠ nul), List.takeWhile_append_dropWhile.symm, ?_, ?_⟩
  · intro c hc
    have hhead := List.head?_dropWhile_not (fun c => decide (c ≠ nul)) arg.toList
    rw [Option.mem_def.mp hc] at hhead
    simpa using hhead
  · rw [List.dropWhile_eq_nil_iff]
    constructor
    · intro hall hmem
      simpa using hall nul hmem
    · intro hmem c hc
      refine decide_eq_true ?_
      rintro rfl
      exact hmem hc

-- A statement is read as it is meant when every argument is inert.
theorem tokenise_render {pieces : List Piece} (hs : Separated pieces)
    (hinert : ∀ arg ∈ arguments pieces, Inert arg) :
    tokenise (render pieces) = some (meant pieces) := by
  induction pieces with
  | nil => simp [render, meant, tokenise]
  | cons piece rest ih =>
      cases piece with
      | text s =>
          have hrest := ih hs.2 hinert
          rw [render, List.flatMap_cons, ← render, Piece.chars, tokenise_append _ _ hs.1, hrest]
          rfl
      | quoted arg =>
          have harg := hinert arg List.mem_cons_self
          have hrest := ih hs.2 fun other hother => hinert other (List.mem_cons_of_mem _ hother)
          obtain ⟨z, hz, -, hnil⟩ := cut_append arg
          rw [hnil.mpr harg.1, List.append_nil] at hz
          have hchars : render (.quoted arg :: rest) =
              quote :: (cut arg ++ quote :: render rest) := by
            simp [render, Piece.chars]
          rw [hchars, tokenise_quote, literal_of_safe (hz ▸ harg.2) hs.1, Option.bind_some, hrest, ← hz]
          rfl

-- Otherwise already its literals are not the arguments.
theorem inert_of_values {pieces : List Piece} (hs : Separated pieces)
    (hvalues : (tokenise (render pieces)).map values =
      some ((arguments pieces).map String.toList)) :
    ∀ arg ∈ arguments pieces, Inert arg := by
  induction pieces with
  | nil => simp [arguments]
  | cons piece rest ih =>
      cases piece with
      | text s =>
          refine ih hs.2 ?_
          rw [render, List.flatMap_cons, ← render, Piece.chars, tokenise_append _ _ hs.1,
            Option.map_map] at hvalues
          refine Eq.trans (congrFun (congrArg Option.map (funext fun tokens => ?_)) _) hvalues
          exact (values_plain s tokens).symm
      | quoted arg =>
          have hchars : render (.quoted arg :: rest) =
              quote :: (cut arg ++ quote :: render rest) := by
            simp [render, Piece.chars]
          rw [hchars, tokenise_quote] at hvalues
          cases hl : literal (cut arg ++ quote :: render rest) with
          | none => simp [hl] at hvalues
          | some out =>
              obtain ⟨value, after⟩ := out
              rw [hl, Option.bind_some, Option.map_map] at hvalues
              obtain ⟨tokens, htokens, heq⟩ := Option.map_eq_some_iff.mp hvalues
              obtain ⟨hvalue, hall⟩ := List.cons.inj heq
              obtain ⟨z, hz, hhead, hnil⟩ := cut_append arg
              rw [show value = cut arg ++ z from hvalue.trans hz] at hl
              obtain ⟨hz0, hsafe, rfl⟩ := literal_eq_self hl hs.1 hhead
              rw [hz0, List.append_nil] at hz
              refine List.forall_mem_cons.mpr ⟨⟨hnil.mp hz0, hz ▸ hsafe⟩, ih hs.2 ?_⟩
              rw [htokens]
              exact congrArg some hall

theorem values_meant (pieces : List Piece) :
    values (meant pieces) = (arguments pieces).map String.toList := by
  induction pieces with
  | nil => rfl
  | cons piece rest ih =>
      cases piece with
      | text s => exact (values_plain s (meant rest)).trans ih
      | quoted arg => exact congrArg (arg.toList :: ·) ih

-- A statement is read as it is meant, or just has the right literals, exactly when every
-- argument is inert.
theorem tokenise_render_iff {pieces : List Piece} (hs : Separated pieces) :
    tokenise (render pieces) = some (meant pieces) ↔ ∀ arg ∈ arguments pieces, Inert arg := by
  refine ⟨fun h => inert_of_values hs ?_, tokenise_render hs⟩
  rw [h, Option.map_some, values_meant]

-- The arguments of a call of `sprintf`, those that are macros of the program apart.
inductive FormatArg where
  | defined (s : String)
  | str (s : String)
  | int (n : Int)

-- The text of a macro or a number. A call gives no other argument to a place without quotes.
def FormatArg.bare : FormatArg → List Char
  | .defined s => s.toList
  | .str _ => []
  | .int n => (toString n).toList

def FormatArg.value : FormatArg → String
  | .str s => s
  | _ => ""

-- What `sprintf` makes of a format: an argument between quotes, a macro or a number, and the text
-- around them.
def sprintf : List Char → List FormatArg → List Piece
  | [], _ => []
  | '\x27' :: '%' :: 's' :: '\x27' :: rest, args =>
      .quoted (args.head?.elim "" FormatArg.value) :: sprintf rest args.tail
  | '%' :: 's' :: rest, args =>
      .text (args.head?.elim [] FormatArg.bare) :: sprintf rest args.tail
  | '%' :: 'd' :: rest, args =>
      .text (args.head?.elim [] FormatArg.bare) :: sprintf rest args.tail
  | c :: rest, args => .text [c] :: sprintf rest args

-- A character that goes on after a literal without touching it.
def aside (c : Char) : Bool := c ≠ quote && c ≠ backslash && c ≠ nul && c ≠ '0' && c ≠ '%'

-- A format that has quotes only around `%s`, each pair followed by such a character.
def wellQuoted : List Char → Bool
  | [] => true
  | '\x27' :: '%' :: 's' :: '\x27' :: rest => rest.head?.all aside && wellQuoted rest
  | c :: rest => c ≠ quote && wellQuoted rest

-- No macro has a quote.
def PlainMacros (args : List FormatArg) : Prop := ∀ s, .defined s ∈ args → quote ∉ s.toList

variable {fmt : List Char} {args : List FormatArg}

theorem PlainMacros.tail (h : PlainMacros args) : PlainMacros args.tail :=
  fun s hs => h s (List.mem_of_mem_tail hs)

theorem quote_notMem_repr (n : Nat) : quote ∉ n.repr.toList := by
  intro hmem
  rw [Nat.toList_repr] at hmem
  exact absurd (Nat.isDigit_of_mem_toDigits (by decide) (by decide) hmem) (by decide)

theorem quote_notMem_toString (n : Int) : quote ∉ (toString n).toList := by
  cases n with
  | ofNat n => exact quote_notMem_repr n
  | negSucc n =>
      intro hmem
      have hminus : (toString (Int.negSucc n)).toList = "-".toList ++ (n + 1).repr.toList :=
        String.toList_append
      rw [hminus, List.mem_append] at hmem
      exact hmem.elim (by decide) (quote_notMem_repr (n + 1))

theorem PlainMacros.head (h : PlainMacros args) :
    quote ∉ args.head?.elim [] FormatArg.bare := by
  rcases args with - | ⟨s | s | n, args⟩
  · exact List.not_mem_nil
  · exact h s List.mem_cons_self
  · exact List.not_mem_nil
  · exact quote_notMem_toString n

theorem apart_sprintf (h : fmt.head?.all aside = true) (args : List FormatArg) :
    Apart (render (sprintf fmt args)) := by
  cases fmt with
  | nil => simp [sprintf, render, Apart]
  | cons c rest =>
      simp only [List.head?_cons, Option.all_some, aside, Bool.and_eq_true, decide_eq_true_eq] at h
      obtain ⟨⟨⟨⟨hq, hb⟩, hnul⟩, hzero⟩, hpercent⟩ := h
      have hplain : sprintf (c :: rest) args = .text [c] :: sprintf rest args := by
        rw [sprintf]
        · exact fun _ hc => absurd hc hq
        · exact fun _ hc => absurd hc hpercent
        · exact fun _ hc => absurd hc hpercent
      intro d hd
      rw [hplain, render, List.flatMap_cons] at hd
      obtain rfl := Option.some.inj hd
      exact ⟨hq, hb, hnul, hzero⟩

-- What a well quoted format gives can be taken apart again.
theorem separated_sprintf (h : wellQuoted fmt = true) (hargs : PlainMacros args) :
    Separated (sprintf fmt args) := by
  induction fmt, args using sprintf.induct with
  | case1 args => trivial
  | case2 rest args ih =>
      simp only [wellQuoted, Bool.and_eq_true] at h
      exact ⟨apart_sprintf h.1 args.tail, ih h.2 hargs.tail⟩
  | case3 rest args ih => exact ⟨hargs.head, ih h hargs.tail⟩
  | case4 rest args ih => exact ⟨hargs.head, ih h hargs.tail⟩
  | case5 c rest args hquoted hs hd ih =>
      rw [wellQuoted] at h
      · rw [sprintf]
        · simp only [Bool.and_eq_true, decide_eq_true_eq] at h
          exact ⟨by simpa using h.1.symm, ih h.2 hargs⟩
        · exact hquoted
        · exact hs
        · exact hd
      · exact hquoted

end VideoAdapter.Lib
