/-
**What the text of a refusal tells.**

The text of a refusal is made of words with numbers in between.  Numbers have as many digits as
they need, and a minus sign if they are negative, and nothing in the text says how long they are.
It can still be read.  The words are all known and have no digit and no minus sign in them, so what
is left of a text without the characters of numbers tells the cause
(`Cityscape.Refusal.withoutNumbers_message`).  This also tells apart the two causes whose texts
begin with the same word, however long the number is that stands between it and the first word that
differs.

Once the words are known, the text is read from left to right.  A number ends at the blank or the
comma of the word behind it, so if two texts that begin with a number are equal, the numbers are,
although the characters of one of them could have been the beginning of the other one
(`Cityscape.repr_append_inj`).

Main definitions:

* `Cityscape.inNumber`, `Cityscape.EndsNumber` — the characters of numbers, and the texts that
  begin with another one;
* `Cityscape.withoutNumbers`, `Cityscape.Refusal.words` — a text without the characters of numbers,
  and what this is for each cause.

Main results:

* `Cityscape.repr_append_inj` — **a number can be read off the front of a text**;
* `Cityscape.Refusal.withoutNumbers_message` — the words of a text depend on its cause alone;
* `Cityscape.Refusal.eq_of_message_eq` — a refusal can be told from its text;
* `Cityscape.Refusal.message_is_unambiguous` — **different refusals have different texts**, and so
  they have different events in a trace.
-/

import Cityscape.Session
import Mathlib

set_option relaxedAutoImplicit false
set_option autoImplicit false

namespace Cityscape

/-! ### Numbers in a text -/

/-- The character may stand in a number. -/
def inNumber (c : Char) : Bool := c.isDigit || c == '-'

/-- The text begins with a character that cannot stand in a number. -/
def EndsNumber (s : String) : Prop := ∃ c l, s.toList = c :: l ∧ inNumber c = false

theorem EndsNumber.append {w : String} (h : EndsNumber w) (s : String) : EndsNumber (w ++ s) := by
  obtain ⟨c, l, hw, hc⟩ := h
  refine ⟨c, l ++ s.toList, ?_, hc⟩
  rw [String.toList_append, hw, List.cons_append]

theorem inNumber_of_mem_repr {n : Int} {c : Char} (hc : c ∈ n.repr.toList) : inNumber c = true := by
  have hdigit : ∀ {k : Nat}, c ∈ k.repr.toList → inNumber c = true := by
    intro k hk
    rw [Nat.toList_repr] at hk
    rw [inNumber, Nat.isDigit_of_mem_toDigits (by decide) (by decide) hk, Bool.true_or]
  cases n with
  | ofNat k => exact hdigit hc
  | negSucc k =>
      rw [Int.repr, String.toList_append, List.mem_append] at hc
      rcases hc with hminus | hk
      · obtain rfl : c = '-' := by simpa using hminus
        rfl
      · exact hdigit hk

/-- Behind a number there is no more of it before a text that ends numbers. -/
theorem EndsNumber.eq_nil {s : String} {l rest : List Char} (hs : EndsNumber s)
    (hsplit : s.toList = l ++ rest) (hl : ∀ c ∈ l, inNumber c = true) : l = [] := by
  obtain ⟨c, tail, hcons, hc⟩ := hs
  cases l with
  | nil => rfl
  | cons d l =>
      obtain ⟨rfl, -⟩ := List.cons.inj (hcons.symm.trans hsplit)
      rw [hl c List.mem_cons_self] at hc
      cases hc

/-- **A number can be read off the front of a text**, if what follows it does not go on as a
number. -/
theorem repr_append_inj {n n' : Int} {s s' : String} (hs : EndsNumber s) (hs' : EndsNumber s')
    (h : n.repr ++ s = n'.repr ++ s') : n = n' ∧ s = s' := by
  have hlist := congrArg String.toList h
  rw [String.toList_append, String.toList_append] at hlist
  have hnumbers : n.repr.toList = n'.repr.toList := by
    -- One of the numbers may be longer; what it has more than the other one begins the other rest.
    rcases List.append_eq_append_iff.1 hlist with ⟨l, hlonger, hsplit⟩ | ⟨l, hlonger, hsplit⟩
    · have hl := hs.eq_nil hsplit fun c hc =>
        inNumber_of_mem_repr (hlonger ▸ List.mem_append_right _ hc)
      rw [hlonger, hl, List.append_nil]
    · have hl := hs'.eq_nil hsplit fun c hc =>
        inNumber_of_mem_repr (hlonger ▸ List.mem_append_right _ hc)
      rw [hlonger, hl, List.append_nil]
  have hrepr := String.toList_inj.1 hnumbers
  rw [hrepr, String.append_right_inj] at h
  exact ⟨Int.repr_inj.1 hrepr, h⟩

/-- A number and the word behind it can be read off the front of a text. -/
theorem repr_append_word_inj {n n' : Int} {w s s' : String} (hw : EndsNumber w)
    (h : n.repr ++ (w ++ s) = n'.repr ++ (w ++ s')) : n = n' ∧ s = s' := by
  obtain ⟨hn, hrest⟩ := repr_append_inj (hw.append s) (hw.append s') h
  exact ⟨hn, (String.append_right_inj w).1 hrest⟩

/-! ### The words of a text -/

/-- What is left of a text without the characters of numbers. -/
def withoutNumbers (s : String) : List Char := s.toList.filter fun c => !inNumber c

theorem withoutNumbers_append (s s' : String) :
    withoutNumbers (s ++ s') = withoutNumbers s ++ withoutNumbers s' := by
  rw [withoutNumbers, String.toList_append, List.filter_append, withoutNumbers, withoutNumbers]

theorem withoutNumbers_repr (n : Int) : withoutNumbers n.repr = [] := by
  refine List.filter_eq_nil_iff.2 fun c hc => ?_
  rw [inNumber_of_mem_repr hc]
  decide

namespace Refusal

theorem message_overCapacity (requested capacity : Nat) :
    (overCapacity requested capacity).message = "scratch capacity exceeded: requested " ++
      (requested : Int).repr ++ ", capacity " ++ (capacity : Int).repr := rfl

theorem message_degenerate (index : Nat) (b : Building) :
    (degenerate index b).message = "building " ++ (index : Int).repr ++ " is degenerate: left=" ++
      b.left.toInt.repr ++ " right=" ++ b.right.toInt.repr ++ " height=" ++
      b.height.toInt.repr := rfl

theorem message_unsorted (index : Nat) : (unsorted index).message =
    "building " ++ (index : Int).repr ++ " is not sorted by ascending left edge" := rfl

theorem message_malformed (index : Nat) : (malformed index).message =
    "key point " ++ (index : Int).repr ++ " violates skyline ordering" := rfl

/-- The words that tell a cause, with nothing in between. -/
def words : Refusal → String
  | overCapacity _ _ => "scratch capacity exceeded: requested , capacity "
  | degenerate _ _ => "building  is degenerate: left= right= height="
  | unsorted _ => "building  is not sorted by ascending left edge"
  | malformed _ => "key point  violates skyline ordering"

/-- **The text of a refusal without its numbers** depends on the cause alone. -/
theorem withoutNumbers_message (e : Refusal) : withoutNumbers e.message = e.words.toList := by
  cases e with
  | overCapacity requested capacity =>
      simp only [message_overCapacity, withoutNumbers_append, withoutNumbers_repr, words]
      decide
  | degenerate index b =>
      simp only [message_degenerate, withoutNumbers_append, withoutNumbers_repr, words]
      decide
  | unsorted index =>
      simp only [message_unsorted, withoutNumbers_append, withoutNumbers_repr, words]
      decide
  | malformed index =>
      simp only [message_malformed, withoutNumbers_append, withoutNumbers_repr, words]
      decide

theorem words_eq_of_message_eq {e e' : Refusal} (h : e.message = e'.message) :
    e.words = e'.words := by
  rw [← String.toList_inj, ← withoutNumbers_message, ← withoutNumbers_message, h]

/-! ### Reading a text -/

theorem overCapacity_inj_of_message {m n m' n' : Nat}
    (h : (overCapacity m n).message = (overCapacity m' n').message) : m = m' ∧ n = n' := by
  simp only [message_overCapacity, String.append_assoc, String.append_right_inj] at h
  obtain ⟨hm, h⟩ := repr_append_word_inj ⟨',', _, rfl, rfl⟩ h
  exact ⟨Int.ofNat.inj hm, Int.ofNat.inj (Int.repr_inj.1 h)⟩

theorem degenerate_inj_of_message {i j : Nat} {b c : Building}
    (h : (degenerate i b).message = (degenerate j c).message) : i = j ∧ b = c := by
  simp only [message_degenerate, String.append_assoc, String.append_right_inj] at h
  obtain ⟨hindex, h⟩ := repr_append_word_inj ⟨' ', _, rfl, rfl⟩ h
  obtain ⟨hleft, h⟩ := repr_append_word_inj ⟨' ', _, rfl, rfl⟩ h
  obtain ⟨hright, h⟩ := repr_append_word_inj ⟨' ', _, rfl, rfl⟩ h
  have hheight := Int.repr_inj.1 h
  rcases b with ⟨left, right, height⟩
  rcases c with ⟨left', right', height'⟩
  obtain rfl : left = left' := Int64.toInt_inj.1 hleft
  obtain rfl : right = right' := Int64.toInt_inj.1 hright
  obtain rfl : height = height' := Int64.toInt_inj.1 hheight
  exact ⟨Int.ofNat.inj hindex, rfl⟩

theorem unsorted_inj_of_message {i j : Nat} (h : (unsorted i).message = (unsorted j).message) :
    i = j := by
  simp only [message_unsorted, String.append_left_inj, String.append_right_inj] at h
  exact Int.ofNat.inj (Int.repr_inj.1 h)

theorem malformed_inj_of_message {i j : Nat} (h : (malformed i).message = (malformed j).message) :
    i = j := by
  simp only [message_malformed, String.append_left_inj, String.append_right_inj] at h
  exact Int.ofNat.inj (Int.repr_inj.1 h)

/-- **A refusal can be told from its text.** -/
theorem eq_of_message_eq {e e' : Refusal} (h : e.message = e'.message) : e = e' := by
  -- Texts for different causes differ in their words already, so numbers are read for one cause at
  -- a time.
  have hwords := words_eq_of_message_eq h
  cases e with
  | overCapacity m n =>
      cases e' with
      | overCapacity m' n' =>
          obtain ⟨rfl, rfl⟩ := overCapacity_inj_of_message h
          rfl
      | _ => simp [words] at hwords
  | degenerate i b =>
      cases e' with
      | degenerate j c =>
          obtain ⟨rfl, rfl⟩ := degenerate_inj_of_message h
          rfl
      | _ => simp [words] at hwords
  | unsorted i =>
      cases e' with
      | unsorted j => rw [unsorted_inj_of_message h]
      | _ => simp [words] at hwords
  | malformed i =>
      cases e' with
      | malformed j => rw [malformed_inj_of_message h]
      | _ => simp [words] at hwords

/-- **The texts of refusals are unambiguous.**  Whatever numbers they carry, refusals with the same
text are the same, and so are refusals that are told by the same event of a trace. -/
theorem message_is_unambiguous (e e' : Refusal) :
    (e.message = e'.message ↔ e = e') ∧ (Session.rejected e = Session.rejected e' ↔ e = e') := by
  refine ⟨⟨eq_of_message_eq, congrArg message⟩, fun h => ?_, congrArg Session.rejected⟩
  have htext : e.message = e'.message := by simpa [Session.rejected] using h
  exact eq_of_message_eq htext

end Refusal

end Cityscape
