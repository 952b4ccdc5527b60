import Mathlib.Data.List.DropRight
import Mathlib.Data.List.Infix

/-!
# Text as the standard library cuts it

Search for a pattern, stripping of what repeats at an end, white space, lines, and numbers read from
their digits, on lists of characters. Each cut is characterised by what it leaves: the text is that
and what was cut.
-/

namespace Str

section Pattern

variable {α : Type*} [DecidableEq α] {pat l r : List α}

/-- `find`: the first place the pattern is at. -/
def find (pat : List α) : List α → Option ℕ
  | [] => if pat = [] then some 0 else none
  | c :: cs => if pat <+: c :: cs then some 0 else (find pat cs).map (· + 1)

/-- Strips the pattern from the front, `n` times at most. -/
def stripStart (pat : List α) : ℕ → List α → List α
  | 0, l => l
  | n + 1, l => if pat <+: l then stripStart pat n (l.drop pat.length) else l

def trimStartMatches (pat l : List α) : List α := stripStart pat l.length l

def trimEndMatches (pat l : List α) : List α := (trimStartMatches pat.reverse l.reverse).reverse

/-! ## Search -/

theorem find_isPrefix : ∀ {l : List α} {i : ℕ}, find pat l = some i → pat <+: l.drop i
  | [], i, h => by
    unfold find at h
    split_ifs at h with hp
    rw [hp]
    exact List.nil_prefix
  | c :: cs, i, h => by
    unfold find at h
    split_ifs at h with hp
    · cases h
      exact hp
    · obtain ⟨j, hj, rfl⟩ := Option.map_eq_some_iff.mp h
      rw [List.drop_succ_cons]
      exact find_isPrefix hj

/-- A pattern is found where it starts, if its first character is not there before. -/
theorem find_append {c : α} : ∀ {before : List α} (rest : List α), c ∉ before →
    find (c :: pat) (before ++ c :: pat ++ rest) = some before.length
  | [], rest, _ => by
    simp [find]
  | b :: before, rest, h => by
    obtain ⟨hb, h⟩ := not_or.mp (fun hc => h (List.mem_cons.mpr hc))
    have hp : ¬ c :: pat <+: b :: (before ++ c :: pat ++ rest) := fun hp =>
      hb (List.cons_prefix_cons.mp hp).1
    rw [List.cons_append, List.cons_append, find, if_neg hp, find_append rest h]
    rfl

/-! ## Stripping -/

theorem stripStart_eq : ∀ {k n : ℕ}, k ≤ n → ¬ pat <+: r →
    stripStart pat n ((List.replicate k pat).flatten ++ r) = r
  | 0, 0, _, _ => rfl
  | 0, n + 1, _, hr => if_neg hr
  | k + 1, n + 1, hk, hr => by
    rw [List.replicate_succ, List.flatten_cons, List.append_assoc, stripStart,
      if_pos (List.prefix_append _ _), List.drop_left]
    exact stripStart_eq (Nat.le_of_succ_le_succ hk) hr

theorem exists_stripStart (hp : pat ≠ []) : ∀ {n : ℕ} {l : List α}, l.length ≤ n →
    ∃ k, l = (List.replicate k pat).flatten ++ stripStart pat n l ∧ ¬ pat <+: stripStart pat n l
  | 0, l, hl => by
    have hnil : l = [] := List.length_eq_zero_iff.mp (Nat.le_zero.mp hl)
    refine ⟨0, rfl, ?_⟩
    rw [hnil]
    exact fun h => hp (List.prefix_nil.mp h)
  | n + 1, l, hl => by
    by_cases hpl : pat <+: l
    · obtain ⟨r, rfl⟩ := hpl
      have hlen : 0 < pat.length := List.length_pos_iff.mpr hp
      rw [List.length_append] at hl
      obtain ⟨k, hk, hnot⟩ := exists_stripStart hp (n := n) (l := r) (by omega)
      refine ⟨k + 1, ?_, ?_⟩
      · rw [stripStart, if_pos (List.prefix_append _ _), List.drop_left, List.replicate_succ,
          List.flatten_cons, List.append_assoc, ← hk]
      · rwa [stripStart, if_pos (List.prefix_append _ _), List.drop_left]
    · exact ⟨0, by rw [stripStart, if_neg hpl]; rfl, by rwa [stripStart, if_neg hpl]⟩

theorem trimStartMatches_eq (hp : pat ≠ []) (hr : ¬ pat <+: r) (k : ℕ) :
    trimStartMatches pat ((List.replicate k pat).flatten ++ r) = r := by
  refine stripStart_eq ?_ hr
  have hlen : 1 ≤ pat.length := List.length_pos_iff.mpr hp
  calc k ≤ k * pat.length := Nat.le_mul_of_pos_right k hlen
    _ = (List.replicate k pat).flatten.length := by simp
    _ ≤ _ := by rw [List.length_append]; exact Nat.le_add_right _ _

theorem trimEndMatches_eq (hp : pat ≠ []) (hr : ¬ pat <:+ r) (k : ℕ) :
    trimEndMatches pat (r ++ (List.replicate k pat).flatten) = r := by
  have hrev : (r ++ (List.replicate k pat).flatten).reverse
      = (List.replicate k pat.reverse).flatten ++ r.reverse := by
    rw [List.reverse_append, List.reverse_flatten, List.map_replicate, List.reverse_replicate]
  rw [trimEndMatches, hrev, trimStartMatches_eq (by simpa using hp) (by simpa using hr),
    List.reverse_reverse]

theorem exists_trimEndMatches (hp : pat ≠ []) (l : List α) :
    ∃ k, l = trimEndMatches pat l ++ (List.replicate k pat).flatten := by
  have hrev : pat.reverse ≠ [] := by simpa using hp
  obtain ⟨k, hk, -⟩ := exists_stripStart hrev (le_refl l.reverse.length)
  refine ⟨k, List.reverse_injective ?_⟩
  rw [List.reverse_append, List.reverse_flatten, List.map_replicate, List.reverse_replicate,
    trimEndMatches, List.reverse_reverse]
  exact hk

end Pattern

/-! ## Lines -/

section Lines

variable {α : Type*} [BEq α] [LawfulBEq α] {x : α}

theorem splitOn_cons_of_notMem {line : List α} (h : x ∉ line) (rest : List α) :
    (line ++ x :: rest).splitOn x = line :: rest.splitOn x :=
  List.splitOnP_append_cons_of_forall_mem (fun y hy => by
    simpa using fun heq : y = x => h (heq ▸ hy)) x (by simp) rest

theorem splitOn_flatMap (rest : List α) : ∀ {lines : List (List α)}, (∀ line ∈ lines, x ∉ line) →
    (lines.flatMap (fun line => line ++ [x]) ++ rest).splitOn x = lines ++ rest.splitOn x
  | [], _ => rfl
  | line :: lines, h => by
    rw [List.flatMap_cons, List.append_assoc, List.append_assoc, List.singleton_append,
      splitOn_cons_of_notMem (h line List.mem_cons_self),
      splitOn_flatMap rest fun l hl => h l (List.mem_cons_of_mem line hl)]
    rfl

/-- What is added at the end without a line break belongs to the last line. -/
theorem splitOn_append_of_notMem {added : List α} (h : x ∉ added) : ∀ l : List α,
    ∃ lines last, l.splitOn x = lines ++ [last]
      ∧ (l ++ added).splitOn x = lines ++ [last ++ added]
  | [] => ⟨[], [], by simp, by simpa using List.splitOn_eq_singleton h⟩
  | c :: l => by
    obtain ⟨lines, last, hl, ha⟩ := splitOn_append_of_notMem h l
    rw [List.cons_append, List.splitOn_cons_eq_if_modifyHead, List.splitOn_cons_eq_if_modifyHead,
      hl, ha]
    split_ifs
    · exact ⟨[] :: lines, last, rfl, rfl⟩
    · rcases lines with _ | ⟨line, lines⟩
      · exact ⟨[], c :: last, rfl, rfl⟩
      · exact ⟨(c :: line) :: lines, last, rfl, rfl⟩

end Lines

section Entries

variable {α β : Type*} {f g : α → Option β}

theorem filterMap_sublist (h : ∀ a b, f a = some b → g a = some b) : ∀ l : List α,
    List.Sublist (l.filterMap f) (l.filterMap g)
  | [] => List.Sublist.slnil
  | a :: l => by
    have ih := filterMap_sublist h l
    rcases hf : f a with _ | b
    · rw [List.filterMap_cons_none hf]
      exact ih.trans ((List.sublist_cons_self a l).filterMap g)
    · rw [List.filterMap_cons_some hf, List.filterMap_cons_some (h a b hf)]
      exact ih.cons_cons b

/-- Of two readings of the lines, the one that finds less finds all the other does only if it reads
every line the same. -/
theorem filterMap_sublist_iff (h : ∀ a b, f a = some b → g a = some b) : ∀ {l : List α},
    List.Sublist (l.filterMap g) (l.filterMap f) ↔ ∀ a ∈ l, f a = g a
  | [] => by simp
  | a :: l => by
    rw [List.forall_mem_cons, ← filterMap_sublist_iff h]
    rcases hf : f a with _ | b
    · rcases hg : g a with _ | b
      · rw [List.filterMap_cons_none hf, List.filterMap_cons_none hg]
        exact (and_iff_right rfl).symm
      · rw [List.filterMap_cons_none hf, List.filterMap_cons_some hg]
        refine iff_of_false (fun hsub => ?_) (by simp)
        have hlen := (hsub.trans (filterMap_sublist h l)).length_le
        exact absurd hlen (by simp)
    · rw [h a b hf, List.filterMap_cons_some hf, List.filterMap_cons_some (h a b hf),
        List.cons_sublist_cons]
      exact (and_iff_right rfl).symm

end Entries

/-! ## White space -/

/-- `char::is_whitespace`: the Unicode property White_Space. -/
def isWhitespace (c : Char) : Bool :=
  let n := c.toNat
  9 ≤ n && n ≤ 13 || n == 0x20 || n == 0x85 || n == 0xa0 || n == 0x1680
    || 0x2000 ≤ n && n ≤ 0x200a || n == 0x2028 || n == 0x2029 || n == 0x202f || n == 0x205f
    || n == 0x3000

def trim (s : List Char) : List Char := (s.dropWhile isWhitespace).rdropWhile isWhitespace

theorem trim_eq_self {s : List Char} (h : ∀ c ∈ s, ¬ isWhitespace c) : trim s = s := by
  have hl : s.dropWhile isWhitespace = s :=
    List.dropWhile_eq_self_iff.mpr fun hlen => h _ (List.getElem_mem hlen)
  rw [trim, hl]
  exact List.rdropWhile_eq_self_iff.mpr fun hne => h _ (List.getLast_mem hne)

theorem trim_concat {c : Char} (hc : isWhitespace c) (s : List Char) :
    trim (s ++ [c]) = trim s := by
  unfold trim
  rw [List.dropWhile_append]
  split_ifs with hs
  · rw [List.isEmpty_iff.mp hs]
    simp [hc]
  · exact List.rdropWhile_concat_pos _ _ _ hc

theorem trim_isPrefix {c : Char} (hc : ¬ isWhitespace c) (s : List Char) :
    trim (c :: s) <+: c :: s := by
  rw [trim, List.dropWhile_cons_of_neg hc]
  exact List.rdropWhile_prefix _ _

/-- White space is all that is trimmed. -/
theorem mem_trim {c : Char} (hc : ¬ isWhitespace c) {s : List Char} (h : c ∈ s) : c ∈ trim s := by
  have hd : c ∈ s.dropWhile isWhitespace := by
    rw [← List.takeWhile_append_dropWhile (p := isWhitespace) (l := s)] at h
    exact (List.mem_append.mp h).resolve_left fun ht => hc (List.mem_takeWhile_imp ht)
  rw [← List.rdropWhile_append_rtakeWhile (p := isWhitespace) (l := s.dropWhile isWhitespace)] at hd
  exact (List.mem_append.mp hd).resolve_right fun ht => hc (List.mem_rtakeWhile_imp ht)

/-! ## Numbers -/

/-- `char::to_digit`. -/
def toDigit (radix : ℕ) (c : Char) : Option ℕ :=
  let n := c.toNat
  let d :=
    if 48 ≤ n ∧ n ≤ 57 then some (n - 48)
    else if 97 ≤ n ∧ n ≤ 122 then some (n - 97 + 10)
    else if 65 ≤ n ∧ n ≤ 90 then some (n - 65 + 10)
    else none
  d.filter (· < radix)

def ofDigits (radix : ℕ) (ds : List ℕ) : ℕ := ds.foldl (fun n d => n * radix + d) 0

/-- `from_str_radix` of an unsigned type with `bound` values. -/
def fromStrRadix (radix bound : ℕ) (s : List Char) : Option ℕ :=
  let digits := match s with
    | '+' :: rest => rest
    | _ => s
  if digits = [] then none
  else ((digits.mapM (toDigit radix)).map (ofDigits radix)).filter fun n => n < bound

theorem toDigit_some {radix : ℕ} {c : Char} {d : ℕ} (h : toDigit radix c = some d) :
    48 ≤ c.toNat ∧ c.toNat ≤ 57 ∨ 97 ≤ c.toNat ∧ c.toNat ≤ 122 ∨ 65 ≤ c.toNat ∧ c.toNat ≤ 90 := by
  obtain ⟨hd, -⟩ := Option.filter_eq_some_iff.mp h
  split_ifs at hd with h1 h2 h3
  · exact Or.inl h1
  · exact Or.inr (Or.inl h2)
  · exact Or.inr (Or.inr h3)

theorem not_isWhitespace_of_toDigit {radix : ℕ} {c : Char} (h : (toDigit radix c).isSome) :
    ¬ isWhitespace c := by
  obtain ⟨d, hd⟩ := Option.isSome_iff_exists.mp h
  have := toDigit_some hd
  simp only [isWhitespace, Bool.or_eq_true, Bool.and_eq_true, decide_eq_true_eq, beq_iff_eq]
  omega

theorem fromStrRadix_eq {radix bound : ℕ} {s : List Char} {ds : List ℕ}
    (hs : s.mapM (toDigit radix) = some ds) (hne : s ≠ []) (hlt : ofDigits radix ds < bound) :
    fromStrRadix radix bound s = some (ofDigits radix ds) := by
  unfold fromStrRadix
  rcases s with _ | ⟨c, s⟩
  · exact absurd rfl hne
  · -- a digit is no sign
    have hc : c ≠ '+' := by
      rintro rfl
      simp [toDigit] at hs
    simp [hc, hs, hlt]

/-! ## Numerals -/

theorem toDigit_digitChar {radix d : ℕ} (hr : radix ≤ 16) (hd : d < radix) :
    toDigit radix d.digitChar = some d := by
  have h : ∀ d, d < 16 → toDigit 16 d.digitChar = some d := by decide
  obtain ⟨hv, -⟩ := Option.filter_eq_some_iff.mp (h d (hd.trans_le hr))
  exact Option.filter_eq_some_iff.mpr ⟨hv, by simpa using hd⟩

theorem ofDigits_concat (radix : ℕ) (ds : List ℕ) (d : ℕ) :
    ofDigits radix (ds ++ [d]) = ofDigits radix ds * radix + d :=
  List.foldl_append

theorem ofDigits_singleton (radix d : ℕ) : ofDigits radix [d] = d := by
  change 0 * radix + d = d
  rw [Nat.zero_mul, Nat.zero_add]

/-- The digits of a number are digits, and read as the number. -/
theorem ofDigits_toDigits {b : ℕ} (hb : 1 < b) (hb' : b ≤ 16) (n : ℕ) :
    (∀ c ∈ Nat.toDigits b n, (toDigit b c).isSome)
      ∧ ofDigits b ((Nat.toDigits b n).filterMap (toDigit b)) = n := by
  induction n using Nat.strongRecOn with
  | ind n ih =>
    rw [Nat.toDigits_eq_if hb]
    split_ifs with hn
    · have hd := toDigit_digitChar hb' hn
      simp [hd, ofDigits_singleton]
    · have hd := toDigit_digitChar hb' (Nat.mod_lt n (by omega : 0 < b))
      obtain ⟨hall, hval⟩ := ih (n / b) (Nat.div_lt_self (by omega) hb)
      refine ⟨fun c hc => ?_, ?_⟩
      · rcases List.mem_append.mp hc with hc | hc
        · exact hall c hc
        · rw [List.mem_singleton.mp hc, hd]
          rfl
      · rw [List.filterMap_append, List.filterMap_cons_some hd, List.filterMap_nil,
          ofDigits_concat, hval, Nat.mul_comm]
        exact Nat.div_add_mod n b

theorem head_toDigits {b : ℕ} (hb : 1 < b) {n : ℕ} (hn : 0 < n) :
    (Nat.toDigits b n).head? ≠ some '0' := by
  induction n using Nat.strongRecOn with
  | ind n ih =>
    rw [Nat.toDigits_eq_if hb]
    split_ifs with hlt
    · intro h
      have h0 : n = 0 := by simpa using h
      omega
    · rw [List.head?_append_of_ne_nil _ Nat.toDigits_ne_nil]
      exact ih (n / b) (Nat.div_lt_self hn hb) (Nat.div_pos (by omega) (by omega))

end Str
