import Mathlib.Data.List.Basic
import Mathlib.Data.List.Infix
import Mathlib.Algebra.Order.BigOperators.Group.List

/-!
# Text cut to a number of bytes

A string's UTF-8 bytes cut after `n` of them are text again only if no character straddles the cut:
they are then the longest prefix of whole characters that fits in `n` bytes (`fit`), and otherwise
they are no text at all (`fromUTF8?_take`).
-/

namespace Utf8

def size : List Char → ℕ
  | [] => 0
  | c :: cs => c.utf8Size + size cs

/-- The longest prefix of the characters that takes up at most `n` bytes. -/
def fit : ℕ → List Char → List Char
  | _, [] => []
  | n, c :: cs => if c.utf8Size ≤ n then c :: fit (n - c.utf8Size) cs else []

@[simp] theorem size_nil : size [] = 0 := rfl

@[simp] theorem size_cons (c : Char) (cs : List Char) : size (c :: cs) = c.utf8Size + size cs := rfl

@[simp] theorem size_append : ∀ cs ds : List Char, size (cs ++ ds) = size cs + size ds
  | [], ds => by rw [List.nil_append, size_nil, Nat.zero_add]
  | c :: cs, ds => by
    rw [List.cons_append, size_cons, size_cons, size_append cs ds, Nat.add_assoc]

theorem size_eq_zero {cs : List Char} (h : size cs = 0) : cs = [] := by
  rcases cs with _ | ⟨c, cs⟩
  · rfl
  · have hpos := c.utf8Size_pos
    rw [size_cons] at h
    omega

theorem fit_isPrefix : ∀ (n : ℕ) (cs : List Char), fit n cs <+: cs
  | _, [] => List.prefix_rfl
  | n, c :: cs => by
    unfold fit
    split_ifs
    · exact List.cons_prefix_cons.mpr ⟨rfl, fit_isPrefix _ cs⟩
    · exact List.nil_prefix

theorem size_fit_le : ∀ (n : ℕ) (cs : List Char), size (fit n cs) ≤ n
  | _, [] => Nat.zero_le _
  | n, c :: cs => by
    unfold fit
    split_ifs with h
    · have ih := size_fit_le (n - c.utf8Size) cs
      rw [size_cons]
      omega
    · exact Nat.zero_le _

theorem prefix_fit : ∀ {n : ℕ} {cs ds : List Char}, ds <+: cs → size ds ≤ n → ds <+: fit n cs
  | _, _, [], _, _ => List.nil_prefix
  | _, [], _ :: _, h, _ => absurd (List.prefix_nil.mp h) (List.cons_ne_nil _ _)
  | n, c :: cs, d :: ds, h, hn => by
    obtain ⟨rfl, hds⟩ := List.cons_prefix_cons.mp h
    rw [size_cons] at hn
    have hd : d.utf8Size ≤ n := by omega
    rw [fit, if_pos hd]
    exact List.cons_prefix_cons.mpr ⟨rfl, prefix_fit hds (by omega)⟩

/-- A prefix of exactly `n` bytes is the longest that fits. -/
theorem fit_eq {n : ℕ} {cs ds : List Char} (h : ds <+: cs) (hn : size ds = n) : fit n cs = ds := by
  obtain ⟨es, hes⟩ := prefix_fit h hn.le
  have hsize := size_fit_le n cs
  rw [← hes, size_append, hn] at hsize
  have hnil : es = [] := size_eq_zero (by omega)
  rw [← hes, hnil, List.append_nil]

theorem fit_of_size_le {n : ℕ} {cs : List Char} (h : size cs ≤ n) : fit n cs = cs :=
  (fit_isPrefix n cs).eq_of_length_le (prefix_fit List.prefix_rfl h).length_le

theorem fit_ne_nil {n : ℕ} {cs : List Char} (hn : 4 ≤ n) (h : cs ≠ []) : fit n cs ≠ [] := by
  rcases cs with _ | ⟨c, cs⟩
  · exact absurd rfl h
  · have hc := c.utf8Size_le_four
    rw [fit, if_pos (hc.trans hn)]
    exact List.cons_ne_nil _ _

/-- `t` is the longest of the prefixes of `s` that take up at most `n` bytes. -/
structure LongestPrefix (n : ℕ) (s t : String) : Prop where
  isPrefix : t.toList <+: s.toList
  fits : size t.toList ≤ n
  longest : ∀ cs, cs <+: s.toList → size cs ≤ n → cs <+: t.toList

theorem longestPrefix_iff {n : ℕ} {s t : String} :
    LongestPrefix n s t ↔ t = String.ofList (fit n s.toList) := by
  refine ⟨?_, ?_⟩
  · intro h
    have hle := prefix_fit h.isPrefix h.fits
    have hge := h.longest _ (fit_isPrefix n s.toList) (size_fit_le n s.toList)
    rw [← hle.eq_of_length_le hge.length_le, String.ofList_toList]
  · rintro rfl
    refine ⟨?_, ?_, ?_⟩ <;> simp only [String.toList_ofList]
    · exact fit_isPrefix n _
    · exact size_fit_le n _
    · exact fun cs h hn => prefix_fit h hn

/-! ## Bytes -/

theorem utf8ByteSize_ofList : ∀ cs : List Char, (String.ofList cs).utf8ByteSize = size cs
  | [] => rfl
  | c :: cs => by
    rw [size_cons, ← utf8ByteSize_ofList cs]
    simp [String.ofList_cons]

theorem loop_eq (bs : ByteArray) (i : ℕ) (acc : List UInt8) :
    ByteArray.toList.loop bs i acc = acc.reverse ++ bs.data.toList.drop i := by
  fun_induction ByteArray.toList.loop bs i acc with
  | case1 i acc h ih =>
    have hlt : i < bs.data.toList.length := by simpa using h
    have hget : bs.get! i = bs.data.toList[i] := by
      rw [Array.getElem_toList]
      exact getElem!_pos bs.data i (by simpa using h)
    rw [ih, List.drop_eq_getElem_cons hlt, List.reverse_cons, hget]
    simp
  | case2 i acc h =>
    have hle : bs.data.toList.length ≤ i := by simpa using h
    rw [List.drop_eq_nil_of_le hle, List.append_nil]

theorem toList_eq (bs : ByteArray) : bs.toList = bs.data.toList := by
  rw [ByteArray.toList, loop_eq]
  simp

theorem take_eq_extract (bs : ByteArray) (n : ℕ) :
    (⟨(bs.toList.take n).toArray⟩ : ByteArray) = bs.extract 0 n := by
  rw [toList_eq]
  apply ByteArray.ext
  apply Array.toList_inj.mp
  simp

theorem fromUTF8?_toByteArray (s : String) : String.fromUTF8? s.toByteArray = some s :=
  dif_pos s.isValidUTF8

/-- The first `n` bytes of a string are text exactly if the string has no more, or a character
starts behind them. They are then the longest prefix of whole characters that fits. -/
theorem fromUTF8?_take (s : String) (n : ℕ) :
    String.fromUTF8? ⟨(s.toUTF8.toList.take n).toArray⟩
      = if s.utf8ByteSize ≤ n ∨ (⟨n⟩ : String.Pos.Raw).IsValid s then
          some (String.ofList (fit n s.toList))
        else none := by
  rw [take_eq_extract]
  change String.fromUTF8? (s.toByteArray.extract 0 n) = _
  split_ifs with h
  · rcases h with h | h
    · have hall : s.toByteArray.extract 0 n = s.toByteArray := by
        rw [← max_eq_left h, ← String.size_toByteArray, ByteArray.extract_zero_max_size]
      rw [hall, fromUTF8?_toByteArray, fit_of_size_le, String.ofList_toList]
      rwa [← utf8ByteSize_ofList, String.ofList_toList]
    · obtain ⟨s₁, s₂, rfl, hn⟩ := String.Pos.Raw.isValid_iff_exists_append.mp h
      have hsize : n = s₁.utf8ByteSize := congrArg String.Pos.Raw.byteIdx hn
      have hfit : fit n (s₁ ++ s₂).toList = s₁.toList := by
        refine fit_eq ⟨s₂.toList, String.toList_append.symm⟩ ?_
        rw [hsize, ← utf8ByteSize_ofList, String.ofList_toList]
      have hcut : (s₁ ++ s₂).toByteArray.extract 0 n = s₁.toByteArray := by
        rw [String.toByteArray_append]
        exact ByteArray.extract_append_eq_left (hsize.trans String.size_toByteArray.symm)
      rw [hcut, hfit, fromUTF8?_toByteArray, String.ofList_toList]
  · rw [not_or, not_le] at h
    refine dif_neg fun hvalid => h.2 ?_
    refine String.Pos.Raw.isValid_iff_isValidUTF8_extract_zero.mpr ⟨?_, hvalid⟩
    simpa [String.Pos.Raw.le_iff] using h.1.le

end Utf8
