/-
# Python.IpText -- an address is read back from its text

`ip_address(str(a)) == a`, for both versions (`ofText_compressed`), and what a text is read
as has the digits its text can have (`ipAddress_valid`), so that an address and the parts it
was read from name each other.
-/
import ApiSecurityPlatform.Python.IpAddress
import ApiSecurityPlatform.Python.TextLaws
import Mathlib.Data.List.GetD
import Mathlib.Data.List.Nodup
import Mathlib.Tactic.IntervalCases

namespace ApiSecurityPlatform.Python

set_option autoImplicit false

/-! ## Numerals -/

theorem hexDigit?_digitChar {d : Nat} (small : d < 16) : hexDigit? d.digitChar = some d := by
  interval_cases d <;> decide

theorem isDigit_digitChar {d : Nat} (small : d < 10) : isDigit d.digitChar = true := by
  interval_cases d <;> decide

theorem toInt_snoc (base : Nat) (s : Str) (c : Char) :
    toInt base (s ++ [c]) = toInt base s * base + (hexDigit? c).getD 0 := by
  rw [toInt, List.foldl_append]
  rfl

section Numerals

variable {base : Nat}

/-- Every digit of a numeral is one of the base. -/
theorem mem_toDigits (two : 2 ≤ base) {n : Nat} {c : Char} (mem : c ∈ Nat.toDigits base n) :
    ∃ d < base, c = d.digitChar := by
  induction n using Nat.strong_induction_on with
  | _ n ih =>
      rw [Nat.toDigits_eq_if (by omega)] at mem
      split at mem
      · next small => exact ⟨n, small, List.mem_singleton.1 mem⟩
      · next large =>
        rcases List.mem_append.1 mem with early | last
        · exact ih (n / base) (Nat.div_lt_self (by omega) (by omega)) early
        · exact ⟨n % base, Nat.mod_lt _ (by omega), List.mem_singleton.1 last⟩

theorem toInt_toDigits (two : 2 ≤ base) (hex : base ≤ 16) (n : Nat) : toInt base (Nat.toDigits base n) = n := by
  induction n using Nat.strong_induction_on with
  | _ n ih =>
      rw [Nat.toDigits_eq_if (by omega)]
      split
      · next small =>
        simp [toInt, hexDigit?_digitChar (by omega : n < 16)]
      · next large =>
        have last : n % base < 16 := (Nat.mod_lt n (by omega)).trans_le hex
        rw [toInt_snoc, ih (n / base) (Nat.div_lt_self (by omega) (by omega)), hexDigit?_digitChar last]
        exact Nat.div_add_mod' n base

end Numerals

theorem parseOctet_toDigits {n : Nat} (small : n < 256) : parseOctet (Nat.toDigits 10 n) = some n := by
  have all : ∀ m : Fin 256, parseOctet (Nat.toDigits 10 m) = some m.val := by decide +kernel
  exact all ⟨n, small⟩

theorem parseHextet_toDigits {n : Nat} (small : n < 65536) : parseHextet (Nat.toDigits 16 n) = some n := by
  have nonempty : (Nat.toDigits 16 n).isEmpty = false := by simp
  have digits : (Nat.toDigits 16 n).all (fun c => (hexDigit? c).isSome) = true := by
    rw [List.all_eq_true]
    intro c mem
    obtain ⟨d, hex, rfl⟩ := mem_toDigits (by decide) mem
    rw [hexDigit?_digitChar hex]
    rfl
  have short : (Nat.toDigits 16 n).length ≤ 4 :=
    (Nat.length_toDigits_le_iff (by decide) (by decide)).2 (by simpa using small)
  have fits : ¬ 4 < (Nat.toDigits 16 n).length := by omega
  rw [parseHextet, nonempty, digits, toInt_toDigits (by decide) (by decide)]
  simp [fits]

/-! ## Reading -/

theorem parseOctet_lt {s : Str} {n : Nat} (read : parseOctet s = some n) : n < 256 := by
  unfold parseOctet at read
  split at read
  · cases read
  split at read
  · cases read
  · cases read
    omega

theorem foldl_hex_lt {s : Str} {n bound : Nat} (start : n < bound) :
    s.foldl (fun n c => n * 16 + (hexDigit? c).getD 0) n < bound * 16 ^ s.length := by
  have digit : ∀ c, (hexDigit? c).getD 0 < 16 := by
    intro c
    unfold hexDigit?
    repeat' split
    all_goals simp only [Option.getD_some, Option.getD_none]
    · next bounds =>
      have top : c.toNat ≤ '9'.toNat := bounds.2
      have value : '9'.toNat = 57 := by decide
      omega
    · next bounds =>
      have top : c.toNat ≤ 'f'.toNat := bounds.2
      have value : 'f'.toNat = 102 := by decide
      omega
    · next bounds =>
      have top : c.toNat ≤ 'F'.toNat := bounds.2
      have value : 'F'.toNat = 70 := by decide
      omega
    · omega
  induction s generalizing n bound with
  | nil => simpa using start
  | cons c s ih =>
      rw [List.foldl_cons, List.length_cons, pow_succ', ← mul_assoc]
      exact ih (by have := digit c; omega)

theorem parseHextet_lt {s : Str} {n : Nat} (read : parseHextet s = some n) : n < 65536 := by
  unfold parseHextet at read
  split at read
  · cases read
  next valid =>
  obtain rfl := Option.some.inj read
  have short : s.length ≤ 4 := by
    simp only [Bool.or_eq_true, decide_eq_true_eq, not_or] at valid
    omega
  have bound : toInt 16 s < 1 * 16 ^ s.length := foldl_hex_lt (by decide)
  have power : 16 ^ s.length ≤ 16 ^ 4 := Nat.pow_le_pow_right (by decide) short
  omega

theorem mapM_some {α β : Type} {f : α → Option β} {xs : List α} {ys : List β} (mapped : xs.mapM f = some ys) :
    ys.length = xs.length ∧ ∀ y ∈ ys, ∃ x ∈ xs, f x = some y := by
  induction xs generalizing ys with
  | nil =>
      obtain rfl := Option.some.inj mapped
      simp
  | cons x xs ih =>
      rw [List.mapM_cons] at mapped
      obtain ⟨z, first, rest⟩ := Option.bind_eq_some_iff.1 mapped
      obtain ⟨zs, others, same⟩ := Option.bind_eq_some_iff.1 rest
      obtain rfl := Option.some.inj same
      obtain ⟨length, sources⟩ := ih others
      refine ⟨by simp [length], fun y mem => ?_⟩
      rcases List.mem_cons.1 mem with rfl | mem
      · exact ⟨x, by simp, first⟩
      · obtain ⟨x', mem', eq⟩ := sources y mem
        exact ⟨x', by simp [mem'], eq⟩

theorem mapM_map_some {α β : Type} {f : α → Option β} {g : β → α} {ys : List β}
    (inverse : ∀ y ∈ ys, f (g y) = some y) : (ys.map g).mapM f = some ys := by
  induction ys with
  | nil => rfl
  | cons y ys ih =>
      rw [List.map_cons, List.mapM_cons, inverse y (by simp), ih fun z mem => inverse z (by simp [mem])]
      rfl

/-- The parts an address can have. -/
def IpAddress.Valid : IpAddress → Prop
  | .v4 octets => octets.length = 4 ∧ ∀ o ∈ octets, o < 256
  | .v6 hextets _ => hextets.length = 8 ∧ ∀ h ∈ hextets, h < 65536

theorem ipv4_valid {s : Str} {octets : List Nat} (read : ipv4 s = some octets) :
    octets.length = 4 ∧ ∀ o ∈ octets, o < 256 := by
  unfold ipv4 at read
  dsimp only at read
  split at read
  · cases read
  next four =>
  obtain ⟨length, sources⟩ := mapM_some read
  refine ⟨by rw [length]; exact not_not.1 four, fun o mem => ?_⟩
  obtain ⟨text, -, parsed⟩ := sources o mem
  exact parseOctet_lt parsed

theorem mapM_parseHextet {parts : List Str} {hextets : List Nat} (read : parts.mapM parseHextet = some hextets) :
    hextets.length = parts.length ∧ ∀ h ∈ hextets, h < 65536 := by
  obtain ⟨length, sources⟩ := mapM_some read
  refine ⟨length, fun h mem => ?_⟩
  obtain ⟨text, -, parsed⟩ := sources h mem
  exact parseHextet_lt parsed

/-- The positions of the inner empty parts. -/
def innerEmpty (parts : List Str) : List Nat :=
  (List.range parts.length).filter fun i =>
    1 ≤ i && i + 1 < parts.length && (parts.getD i []).isEmpty

/-- `_ip_int_from_string` behind its parts. -/
def partsHextets (parts : List Str) : Option (List Nat) :=
  if 9 < parts.length then none
  else
    match innerEmpty parts with
    | [] => if parts.length ≠ 8 then none else parts.mapM parseHextet
    | [skip] =>
        let headless := (parts.headD []).isEmpty
        let tailless := (parts.getLastD []).isEmpty
        let hi := if headless then skip - 1 else skip
        let lo := if tailless then parts.length - skip - 2 else parts.length - skip - 1
        if headless && hi ≠ 0 then none
        else if tailless && lo ≠ 0 then none
        else if 7 < hi + lo then none
        else
          ((parts.take hi).mapM parseHextet).bind fun high =>
            ((parts.drop (parts.length - lo)).mapM parseHextet).bind fun low =>
              some (high ++ List.replicate (8 - (hi + lo)) 0 ++ low)
    | _ => none

theorem ipv6Hextets_eq (s : Str) : ipv6Hextets s = (ipv6Parts s).bind partsHextets := by
  unfold ipv6Hextets
  cases ipv6Parts s with
  | none => rfl
  | some parts =>
      simp only [Option.bind_eq_bind, Option.bind_some, partsHextets, innerEmpty]
      split
      · rfl
      · rfl

theorem partsHextets_valid {parts : List Str} {hextets : List Nat} (read : partsHextets parts = some hextets) :
    hextets.length = 8 ∧ ∀ h ∈ hextets, h < 65536 := by
  unfold partsHextets at read
  split at read
  · cases read
  split at read
  · split at read
    · cases read
    next eight =>
    obtain ⟨length, bound⟩ := mapM_parseHextet read
    exact ⟨by rw [length]; exact not_not.1 eight, bound⟩
  · next skip inner =>
    have inside : skip ∈ innerEmpty parts := by rw [inner]; simp
    simp only [innerEmpty, List.mem_filter, List.mem_range, Bool.and_eq_true, decide_eq_true_eq] at inside
    obtain ⟨-, ⟨after, before⟩, -⟩ := inside
    dsimp only at read
    generalize hiEq : (if (parts.headD []).isEmpty then skip - 1 else skip) = hi at read
    generalize loEq : (if (parts.getLastD []).isEmpty then parts.length - skip - 2
      else parts.length - skip - 1) = lo at read
    have hiLe : hi ≤ skip := by
      rw [← hiEq]
      split <;> omega
    have loLe : lo ≤ parts.length - skip - 1 := by
      rw [← loEq]
      split <;> omega
    split at read
    · cases read
    split at read
    · cases read
    split at read
    · cases read
    next seven =>
    obtain ⟨high, readHigh, rest⟩ := Option.bind_eq_some_iff.1 read
    obtain ⟨low, readLow, same⟩ := Option.bind_eq_some_iff.1 rest
    obtain ⟨highLength, highBound⟩ := mapM_parseHextet readHigh
    obtain ⟨lowLength, lowBound⟩ := mapM_parseHextet readLow
    rw [List.length_take] at highLength
    rw [List.length_drop] at lowLength
    rw [← Option.some.inj same]
    refine ⟨?_, fun h mem => ?_⟩
    · simp only [List.length_append, List.length_replicate]
      omega
    · rcases List.mem_append.1 mem with front | back
      · rcases List.mem_append.1 front with front | zeros
        · exact highBound h front
        · rw [List.eq_of_mem_replicate zeros]
          decide
      · exact lowBound h back
  · cases read

theorem ipAddress_valid {s : Str} {parts : IpAddress} (read : ipAddress s = some parts) : parts.Valid := by
  unfold ipAddress at read
  split at read
  · cases read
  split at read
  · next octets four =>
    cases read
    exact ipv4_valid four
  · dsimp only at read
    split at read
    · cases read
    obtain ⟨hextets, found, rfl⟩ := Option.map_eq_some_iff.1 read
    rw [ipv6Hextets_eq] at found
    obtain ⟨texts, -, eight⟩ := Option.bind_eq_some_iff.1 found
    exact partsHextets_valid eight

/-! ## Numbers and parts -/

theorem ofDigits_snoc (base : Nat) (l : List Nat) (d : Nat) :
    ofDigits base (l ++ [d]) = ofDigits base l * base + d := by
  rw [ofDigits, List.foldl_append]
  rfl

theorem digits_ofDigits {base : Nat} {l : List Nat} (small : ∀ d ∈ l, d < base) :
    digits base l.length (ofDigits base l) = l := by
  induction l using List.reverseRecOn with
  | nil => rfl
  | append_singleton l d ih =>
      have last : d < base := small d (by simp)
      have positive : 0 < base := by omega
      rw [List.length_append, List.length_singleton, digits, ofDigits_snoc, Nat.add_comm, Nat.mul_comm,
        Nat.add_mul_div_left _ _ positive, Nat.div_eq_of_lt last, Nat.zero_add,
        ih fun d' mem => small d' (by simp [mem]), Nat.add_mul_mod_self_left, Nat.mod_eq_of_lt last]

theorem ofDigits_lt {base : Nat} {l : List Nat} (small : ∀ d ∈ l, d < base) : ofDigits base l < base ^ l.length := by
  induction l using List.reverseRecOn with
  | nil => simp [ofDigits]
  | append_singleton l d ih =>
      have last : d < base := small d (by simp)
      have front := ih fun d' mem => small d' (by simp [mem])
      rw [ofDigits_snoc, List.length_append, List.length_singleton, pow_succ]
      calc ofDigits base l * base + d < ofDigits base l * base + base := by omega
        _ = (ofDigits base l + 1) * base := (Nat.succ_mul _ _).symm
        _ ≤ base ^ l.length * base := Nat.mul_le_mul_right base front

theorem length_digits (base count n : Nat) : (digits base count n).length = count := by
  induction count generalizing n with
  | zero => rfl
  | succ count ih => rw [digits, List.length_append, ih, List.length_singleton]

theorem mem_digits {base : Nat} (positive : 0 < base) {count n d : Nat} (mem : d ∈ digits base count n) :
    d < base := by
  induction count generalizing n with
  | zero => cases mem
  | succ count ih =>
      rw [digits] at mem
      rcases List.mem_append.1 mem with early | last
      · exact ih early
      · rw [List.mem_singleton.1 last]
        exact Nat.mod_lt _ positive

theorem ofDigits_digits {base count n : Nat} (small : n < base ^ count) : ofDigits base (digits base count n) = n := by
  induction count generalizing n with
  | zero =>
      rw [pow_zero] at small
      rw [digits, Nat.lt_one_iff.1 small]
      rfl
  | succ count ih =>
      rw [digits, ofDigits_snoc, ih, Nat.div_add_mod']
      rw [pow_succ] at small
      exact Nat.div_lt_of_lt_mul (by rwa [Nat.mul_comm])

namespace Address

theorem valid_parts (a : Address) : a.parts.Valid := by
  cases a with
  | v4 ip => exact ⟨length_digits _ _ _, fun o mem => mem_digits (by decide) mem⟩
  | v6 ip scopeId => exact ⟨length_digits _ _ _, fun h mem => mem_digits (by decide) mem⟩

theorem ofParts_parts (a : Address) : ofParts a.parts = a := by
  cases a with
  | v4 ip =>
      have eq : ofDigits 256 (digits 256 4 ip) = ip.val := ofDigits_digits (by have := ip.isLt; omega)
      simp [parts, ofParts, eq]
  | v6 ip scopeId =>
      have eq : ofDigits 65536 (digits 65536 8 ip) = ip.val := ofDigits_digits (by have := ip.isLt; omega)
      simp [parts, ofParts, eq]

theorem parts_ofParts {p : IpAddress} (valid : p.Valid) : (ofParts p).parts = p := by
  cases p with
  | v4 octets =>
      obtain ⟨four, small⟩ := valid
      have bound := ofDigits_lt small
      have back := digits_ofDigits small
      rw [four] at bound back
      have value : (Fin.ofNat (2 ^ 32) (ofDigits 256 octets)).val = ofDigits 256 octets :=
        Nat.mod_eq_of_lt (by omega)
      rw [ofParts, parts, value, back]
  | v6 hextets scopeId =>
      obtain ⟨eight, small⟩ := valid
      have bound := ofDigits_lt small
      have back := digits_ofDigits small
      rw [eight] at bound back
      have value : (Fin.ofNat (2 ^ 128) (ofDigits 65536 hextets)).val = ofDigits 65536 hextets :=
        Nat.mod_eq_of_lt (by omega)
      rw [ofParts, parts, value, back]

/-- An address that was read is written as its parts are. -/
theorem compressed_of_read {s : Str} {p : IpAddress} (read : ipAddress s = some p) :
    (ofParts p).compressed = p.compressed := by
  rw [compressed, parts_ofParts (ipAddress_valid read)]

end Address

/-! ## Writing and reading back -/

/-- A character that no numeral holds. -/
theorem not_mem_toDigits {base n : Nat} (two : 2 ≤ base) (hex : base ≤ 16) {c : Char}
    (foreign : ∀ d < 16, c ≠ d.digitChar) : c ∉ Nat.toDigits base n := by
  intro mem
  obtain ⟨d, small, rfl⟩ := mem_toDigits two mem
  exact foreign d (by omega) rfl

theorem foreign_of_mem {c : Char} (mem : c ∈ ['/', '.', ':', '%', '[', ']', '@', '?', '#', '\\', ' ']) :
    ∀ d < 16, c ≠ d.digitChar := by
  intro d small same
  have letters : ∀ d < 16, d.digitChar ∉ ['/', '.', ':', '%', '[', ']', '@', '?', '#', '\\', ' '] := by decide
  exact letters d small (same ▸ mem)

theorem ipv4_join {octets : List Nat} (four : octets.length = 4) (small : ∀ o ∈ octets, o < 256) :
    ipv4 (join '.' (octets.map (Nat.toDigits 10))) = some octets := by
  have parts : split '.' (join '.' (octets.map (Nat.toDigits 10))) = octets.map (Nat.toDigits 10) := by
    refine split_join '.' ?_ ?_
    · intro empty
      have none_ := congrArg List.length empty
      rw [List.length_map, four] at none_
      cases none_
    · intro part mem
      obtain ⟨o, -, rfl⟩ := List.mem_map.1 mem
      exact not_mem_toDigits (by decide) (by decide) (foreign_of_mem (by decide))
  rw [ipv4, parts]
  rw [if_neg (by simp [four])]
  exact mapM_map_some fun o mem => parseOctet_toDigits (small o mem)

/-! ### The run of zeros -/

/-- Zeros from one position to another. -/
def Zeros (l : List Nat) (low high : Nat) : Prop := ∀ k, low ≤ k → k < high → l[k]? = some 0

theorem Zeros.snoc {l : List Nat} {low high : Nat} (zeros : Zeros l low high) (x : Nat) :
    Zeros (l ++ [x]) low high := by
  intro k after before
  have found := zeros k after before
  rw [List.getElem?_append_left (List.getElem?_eq_some_iff.1 found).1]
  exact found

theorem Zeros.extend {l : List Nat} {low : Nat} (zeros : Zeros l low l.length) :
    Zeros (l ++ [0]) low (l.length + 1) := by
  intro k after before
  by_cases last : k = l.length
  · rw [last]
    simp
  · exact zeros.snoc 0 k after (by omega)

/-- One step of `_compress_hextets`. -/
def zerosStep (state : (Nat × Nat) × Nat) (entry : Nat × Nat) : (Nat × Nat) × Nat :=
  if entry.1 = 0 then
    (if state.1.2 < state.2 + 1 then (entry.2 + 1 - (state.2 + 1), state.2 + 1) else state.1, state.2 + 1)
  else (state.1, 0)

theorem longestZeros_eq (l : List Nat) : longestZeros l = (l.zipIdx.foldl zerosStep ((0, 0), 0)).1 := rfl

theorem zerosStep_spec (l : List Nat) :
    Zeros l (l.zipIdx.foldl zerosStep ((0, 0), 0)).1.1
        ((l.zipIdx.foldl zerosStep ((0, 0), 0)).1.1 + (l.zipIdx.foldl zerosStep ((0, 0), 0)).1.2) ∧
      (l.zipIdx.foldl zerosStep ((0, 0), 0)).1.1 + (l.zipIdx.foldl zerosStep ((0, 0), 0)).1.2 ≤ l.length ∧
      (l.zipIdx.foldl zerosStep ((0, 0), 0)).2 ≤ l.length ∧
      Zeros l (l.length - (l.zipIdx.foldl zerosStep ((0, 0), 0)).2) l.length := by
  induction l using List.reverseRecOn with
  | nil => simp [Zeros]
  | append_singleton l x ih =>
      rw [List.zipIdx_append, List.foldl_append]
      generalize l.zipIdx.foldl zerosStep ((0, 0), 0) = state at ih ⊢
      obtain ⟨⟨start, length⟩, run⟩ := state
      obtain ⟨best, inside, short, recent⟩ := ih
      dsimp only at best inside short recent
      simp only [List.zipIdx_cons, List.zipIdx_nil, Nat.zero_add, List.foldl_cons, List.foldl_nil,
        List.length_append, List.length_singleton, zerosStep]
      by_cases zero : x = 0
      · subst zero
        have longer : Zeros (l ++ [0]) (l.length + 1 - (run + 1)) (l.length + 1) := by
          have same : l.length + 1 - (run + 1) = l.length - run := by omega
          rw [same]
          exact recent.extend
        rw [if_pos rfl]
        split
        · have ends : l.length + 1 - (run + 1) + (run + 1) = l.length + 1 := by omega
          dsimp only
          rw [ends]
          exact ⟨longer, Nat.le_refl _, by omega, longer⟩
        · exact ⟨best.snoc 0, by dsimp only; omega, by dsimp only; omega, longer⟩
      · rw [if_neg zero]
        refine ⟨best.snoc x, by dsimp only; omega, Nat.zero_le _, ?_⟩
        intro k after before
        dsimp only at after
        omega

/-- The chosen run cuts the hextets in three. -/
theorem longestZeros_cut (l : List Nat) :
    l = l.take (longestZeros l).1 ++ List.replicate (longestZeros l).2 0 ++
      l.drop ((longestZeros l).1 + (longestZeros l).2) ∧
    (longestZeros l).1 + (longestZeros l).2 ≤ l.length := by
  obtain ⟨zeros, inside, -⟩ := zerosStep_spec l
  rw [← longestZeros_eq] at zeros inside
  generalize longestZeros l = run at zeros inside ⊢
  refine ⟨?_, inside⟩
  have middle : (l.drop run.1).take run.2 = List.replicate run.2 0 := by
    refine List.ext_getElem? fun k => ?_
    rw [List.getElem?_take, List.getElem?_drop, List.getElem?_replicate]
    split
    · exact zeros (run.1 + k) (by omega) (by omega)
    · rfl
  rw [← middle, List.append_assoc, ← List.drop_drop, List.take_append_drop, List.take_append_drop]

/-! ### The gap -/

def hexTexts (hextets : List Nat) : List Str := hextets.map (Nat.toDigits 16)

/-- A side of the gap: its hextets, or the empty part before or after a leading or
trailing `::`. -/
def side (hextets : List Nat) : List Str := if hextets = [] then [[]] else hexTexts hextets

theorem hexTexts_ne_nil {hextets : List Nat} {part : Str} (mem : part ∈ hexTexts hextets) : part ≠ [] := by
  obtain ⟨h, -, rfl⟩ := List.mem_map.1 mem
  exact Nat.toDigits_ne_nil

theorem mapM_hexTexts {hextets : List Nat} (small : ∀ h ∈ hextets, h < 65536) :
    (hexTexts hextets).mapM parseHextet = some hextets :=
  mapM_map_some fun h mem => parseHextet_toDigits (small h mem)

theorem length_side (hextets : List Nat) : (side hextets).length = max 1 hextets.length := by
  unfold side
  split
  · next empty => simp [empty]
  · next some_ =>
    have positive := List.length_pos_iff.2 some_
    simp only [hexTexts, List.length_map]
    omega

/-- Within a side only a lone part is empty. -/
theorem side_getD {hextets : List Nat} {i : Nat} (inside : i < (side hextets).length)
    (empty : ((side hextets).getD i []).isEmpty = true) : hextets = [] ∧ i = 0 := by
  rw [length_side] at inside
  by_cases none_ : hextets = []
  · subst none_
    simp only [List.length_nil] at inside
    exact ⟨rfl, by omega⟩
  · exfalso
    rw [side, if_neg none_] at empty
    have positive := List.length_pos_iff.2 none_
    have bound : i < (hexTexts hextets).length := by
      simp only [hexTexts, List.length_map]
      omega
    rw [List.getD_eq_getElem _ _ bound] at empty
    exact hexTexts_ne_nil (List.getElem_mem bound) (List.isEmpty_iff.1 empty)

theorem innerEmpty_of_unique {parts : List Str} {m : Nat}
    (unique : ∀ i < parts.length, (1 ≤ i ∧ i + 1 < parts.length ∧ (parts.getD i []).isEmpty = true) ↔ i = m)
    (inside : m < parts.length) : innerEmpty parts = [m] := by
  have perm : (innerEmpty parts).Perm [m] := by
    refine (List.perm_ext_iff_of_nodup (List.nodup_range.filter _) (List.nodup_singleton m)).2 fun i => ?_
    simp only [List.mem_filter, List.mem_range, Bool.and_eq_true, decide_eq_true_eq, List.mem_singleton]
    constructor
    · rintro ⟨bound, ⟨after, before⟩, empty⟩
      exact (unique i bound).1 ⟨after, before, empty⟩
    · rintro rfl
      obtain ⟨after, before, empty⟩ := (unique i inside).2 rfl
      exact ⟨inside, ⟨after, before⟩, empty⟩
  exact List.perm_singleton.1 perm

theorem innerEmpty_gap (before after : List Nat) :
    innerEmpty (side before ++ [] :: side after) = [(side before).length] := by
  have positive : 1 ≤ (side before).length := by
    rw [length_side]
    omega
  have positive' : 1 ≤ (side after).length := by
    rw [length_side]
    omega
  refine innerEmpty_of_unique (fun i bound => ?_) (by simp)
  simp only [List.length_append, List.length_cons] at bound ⊢
  constructor
  · rintro ⟨low, high, empty⟩
    rcases Nat.lt_trichotomy i (side before).length with left | here | right
    · rw [List.getD_append _ _ _ _ left] at empty
      have first := (side_getD left empty).2
      omega
    · exact here
    · rw [List.getD_append_right _ _ _ _ (by omega)] at empty
      obtain ⟨j, eq⟩ : ∃ j, i - (side before).length = j + 1 := ⟨i - (side before).length - 1, by omega⟩
      rw [eq, List.getD_cons_succ] at empty
      obtain ⟨none_, zero⟩ := side_getD (by omega) empty
      have alone : (side after).length = 1 := by rw [length_side, none_]; rfl
      omega
  · rintro rfl
    refine ⟨positive, by omega, ?_⟩
    rw [List.getD_append_right _ _ _ _ (Nat.le_refl _), Nat.sub_self]
    rfl

theorem side_head (hextets : List Nat) (rest : List Str) :
    ((side hextets ++ rest).headD []).isEmpty = decide (hextets = []) := by
  cases hextets with
  | nil => rfl
  | cons h hextets =>
      simp [side, hexTexts]

theorem side_last (front : List Str) (hextets : List Nat) :
    ((front ++ side hextets).getLastD []).isEmpty = decide (hextets = []) := by
  by_cases none_ : hextets = []
  · subst none_
    simp [side]
  · have some_ : hexTexts hextets ≠ [] := by simpa [hexTexts] using none_
    have last : (front ++ hexTexts hextets).getLastD [] = (hexTexts hextets).getLast some_ := by
      rw [List.getLastD_eq_getLast?, List.getLast?_append_of_ne_nil _ some_, List.getLast?_eq_some_getLast some_]
      rfl
    rw [side, if_neg none_, last, decide_eq_false none_]
    have full := hexTexts_ne_nil (List.getLast_mem some_)
    simpa using full

theorem partsHextets_gap {before after : List Nat} (zeros : Nat) (two : 2 ≤ zeros)
    (eight : before.length + zeros + after.length = 8) (smallBefore : ∀ h ∈ before, h < 65536)
    (smallAfter : ∀ h ∈ after, h < 65536) :
    partsHextets (side before ++ [] :: side after) = some (before ++ List.replicate zeros 0 ++ after) := by
  have lengthBefore := length_side before
  have lengthAfter := length_side after
  have emptyBefore : before = [] ↔ before.length = 0 := List.length_eq_zero_iff.symm
  have emptyAfter : after = [] ↔ after.length = 0 := List.length_eq_zero_iff.symm
  have whole : (side before ++ [] :: side after).length = (side before).length + 1 + (side after).length := by
    simp only [List.length_append, List.length_cons]
    omega
  have takes : (side before ++ [] :: side after).take before.length = hexTexts before := by
    unfold side
    split
    · next none_ =>
      subst none_
      rfl
    · rw [List.take_append_of_le_length (by simp [hexTexts]), List.take_of_length_le (by simp [hexTexts])]
  have drops : (side before ++ [] :: side after).drop
      ((side before ++ [] :: side after).length - after.length) = hexTexts after := by
    by_cases none_ : after = []
    · subst none_
      rw [List.length_nil, Nat.sub_zero, List.drop_length]
      rfl
    · have full : side after = hexTexts after := by rw [side, if_neg none_]
      have position : (side before ++ [] :: side after).length - after.length =
          (side before ++ [[]]).length := by
        rw [whole, full]
        simp only [hexTexts, List.length_map, List.length_append, List.length_singleton]
        omega
      have regrouped : side before ++ [] :: hexTexts after = (side before ++ [[]]) ++ hexTexts after :=
        List.append_cons _ _ _
      rw [position, full, regrouped, List.drop_left]
  have last : (side before ++ [] :: side after).getLastD [] = ((side before ++ [[]]) ++ side after).getLastD [] := by
    rw [List.append_cons]
  rw [partsHextets, if_neg (by omega), innerEmpty_gap]
  dsimp only
  rw [side_head, last, side_last]
  have hi : (if decide (before = []) = true then (side before).length - 1 else (side before).length) =
      before.length := by
    simp only [decide_eq_true_eq, emptyBefore]
    split <;> omega
  have lo : (if decide (after = []) = true then (side before ++ [] :: side after).length - (side before).length - 2
      else (side before ++ [] :: side after).length - (side before).length - 1) = after.length := by
    simp only [decide_eq_true_eq, emptyAfter, whole]
    split <;> omega
  rw [hi, lo, takes, drops, mapM_hexTexts smallBefore, mapM_hexTexts smallAfter]
  have headless : ¬ (decide (before = []) && decide (before.length ≠ 0)) = true := by
    rw [Bool.and_eq_true, decide_eq_true_eq, decide_eq_true_eq, emptyBefore]
    exact fun both => both.2 both.1
  have tailless : ¬ (decide (after = []) && decide (after.length ≠ 0)) = true := by
    rw [Bool.and_eq_true, decide_eq_true_eq, decide_eq_true_eq, emptyAfter]
    exact fun both => both.2 both.1
  rw [if_neg headless, if_neg tailless, if_neg (by omega)]
  have zerosEq : 8 - (before.length + after.length) = zeros := by omega
  rw [zerosEq]
  rfl

theorem partsHextets_full {hextets : List Nat} (eight : hextets.length = 8) (small : ∀ h ∈ hextets, h < 65536) :
    partsHextets (hexTexts hextets) = some hextets := by
  have length : (hexTexts hextets).length = 8 := by rw [hexTexts, List.length_map, eight]
  have inner : innerEmpty (hexTexts hextets) = [] := by
    refine List.filter_eq_nil_iff.2 fun i mem found => ?_
    have bound := List.mem_range.1 mem
    rw [Bool.and_eq_true, List.getD_eq_getElem _ _ bound] at found
    exact hexTexts_ne_nil (List.getElem_mem bound) (List.isEmpty_iff.1 found.2)
  rw [partsHextets, if_neg (by omega), inner]
  dsimp only
  rw [if_neg (by simp [length]), mapM_hexTexts small]

/-- The parts `_compress_hextets` joins. -/
def compressParts (hextets : List Nat) : List Str :=
  if (longestZeros hextets).2 ≤ 1 then hexTexts hextets
  else side (hextets.take (longestZeros hextets).1) ++
    [] :: side (hextets.drop ((longestZeros hextets).1 + (longestZeros hextets).2))

theorem compressHextets_eq (hextets : List Nat) : compressHextets hextets = join ':' (compressParts hextets) := by
  have inside := (longestZeros_cut hextets).2
  unfold compressHextets compressParts
  dsimp only
  generalize longestZeros hextets = run at inside ⊢
  obtain ⟨start, length⟩ := run
  dsimp only at inside ⊢
  split
  · rfl
  next long =>
  have front : (if start = 0 then [[]] else []) ++ (hextets.map (Nat.toDigits 16)).take start =
      side (hextets.take start) := by
    by_cases zero : start = 0
    · subst zero
      rfl
    · have some_ : hextets.take start ≠ [] := by
        intro empty
        have none_ := congrArg List.length empty
        rw [List.length_take, List.length_nil] at none_
        omega
      rw [if_neg zero, List.nil_append, side, if_neg some_, hexTexts, List.map_take]
  have back : (hextets.map (Nat.toDigits 16)).drop (start + length) ++
      (if start + length = hextets.length then [[]] else []) = side (hextets.drop (start + length)) := by
    by_cases whole : start + length = hextets.length
    · rw [if_pos whole, whole, List.drop_of_length_le (by simp), List.nil_append, side,
        if_pos (List.drop_of_length_le (Nat.le_refl _))]
    · have some_ : hextets.drop (start + length) ≠ [] := by
        intro empty
        have none_ := List.drop_eq_nil_iff.1 empty
        omega
      rw [if_neg whole, List.append_nil, side, if_neg some_, hexTexts, List.map_drop]
  rw [front, List.append_assoc, List.append_assoc, back, List.singleton_append]

theorem partsHextets_compressParts {hextets : List Nat} (eight : hextets.length = 8)
    (small : ∀ h ∈ hextets, h < 65536) : partsHextets (compressParts hextets) = some hextets := by
  obtain ⟨cut, inside⟩ := longestZeros_cut hextets
  unfold compressParts
  split
  · exact partsHextets_full eight small
  next long =>
  rw [partsHextets_gap (longestZeros hextets).2 (by omega)]
  · exact congrArg some cut.symm
  · rw [List.length_take, List.length_drop]
    omega
  · exact fun h mem => small h (List.mem_of_mem_take mem)
  · exact fun h mem => small h (List.mem_of_mem_drop mem)

/-- Every part is made of hexadecimal digits. -/
theorem mem_compressParts {hextets : List Nat} {part : Str} (mem : part ∈ compressParts hextets) {c : Char}
    (inside : c ∈ part) : ∃ d < 16, c = Nat.digitChar d := by
  have texts : ∀ {l : List Nat}, part ∈ hexTexts l → ∃ d < 16, c = Nat.digitChar d := by
    intro l mem
    obtain ⟨h, -, rfl⟩ := List.mem_map.1 mem
    exact mem_toDigits (by decide) inside
  have sides : ∀ {l : List Nat}, part ∈ side l → ∃ d < 16, c = Nat.digitChar d := by
    intro l mem
    unfold side at mem
    split at mem
    · rw [List.mem_singleton.1 mem] at inside
      cases inside
    · exact texts mem
  unfold compressParts at mem
  split at mem
  · exact texts mem
  · rcases List.mem_append.1 mem with front | back
    · exact sides front
    · rcases List.mem_cons.1 back with empty | back
      · rw [empty] at inside
        cases inside
      · exact sides back

theorem mem_compressHextets {hextets : List Nat} {c : Char} (mem : c ∈ compressHextets hextets) :
    c = ':' ∨ ∃ d < 16, c = Nat.digitChar d := by
  rw [compressHextets_eq] at mem
  refine (mem_join ':' mem).imp id ?_
  rintro ⟨part, inside, found⟩
  exact mem_compressParts inside found

theorem length_compressParts {hextets : List Nat} (eight : hextets.length = 8) :
    3 ≤ (compressParts hextets).length := by
  unfold compressParts
  split
  · rw [hexTexts, List.length_map]
    omega
  · rw [List.length_append, List.length_cons, length_side, length_side]
    omega

theorem not_mem_compressHextets {hextets : List Nat} {c : Char} (other : c ≠ ':')
    (foreign : ∀ d < 16, c ≠ Nat.digitChar d) : c ∉ compressHextets hextets := by
  intro mem
  rcases mem_compressHextets mem with colon | ⟨d, small, eq⟩
  · exact other colon
  · exact foreign d small eq

theorem ipv6Hextets_compress {hextets : List Nat} (eight : hextets.length = 8)
    (small : ∀ h ∈ hextets, h < 65536) : ipv6Hextets (compressHextets hextets) = some hextets := by
  have three := length_compressParts eight
  have some_ : compressParts hextets ≠ [] := by
    intro empty
    rw [empty] at three
    cases three
  have parts : split ':' (compressHextets hextets) = compressParts hextets := by
    rw [compressHextets_eq]
    refine split_join ':' some_ fun part mem inside => ?_
    obtain ⟨d, hex, eq⟩ := mem_compressParts mem inside
    exact foreign_of_mem (by decide) d hex eq
  have plain : '.' ∉ (compressParts hextets).getLastD [] := by
    intro inside
    rw [List.getLastD_eq_getLast?, List.getLast?_eq_some_getLast some_] at inside
    obtain ⟨d, hex, eq⟩ := mem_compressParts (List.getLast_mem some_) inside
    exact foreign_of_mem (by decide) d hex eq
  rw [ipv6Hextets_eq, ipv6Parts, parts]
  dsimp only
  rw [if_neg (by omega), if_neg plain]
  exact partsHextets_compressParts eight small

namespace Address

theorem ipAddress_compressed_v4 (ip : Fin (2 ^ 32)) :
    ipAddress (Address.v4 ip).compressed = some (Address.v4 ip).parts := by
  obtain ⟨four, small⟩ := valid_parts (.v4 ip)
  have noSlash : '/' ∉ join '.' ((digits 256 4 ip).map (Nat.toDigits 10)) := by
    intro mem
    rcases mem_join '.' mem with dot | ⟨part, inside, found⟩
    · cases dot
    · obtain ⟨o, -, rfl⟩ := List.mem_map.1 inside
      exact not_mem_toDigits (by decide) (by decide) (foreign_of_mem (by decide)) found
  rw [compressed, parts, IpAddress.compressed, ipAddress, if_neg noSlash, ipv4_join four small]

theorem ipAddress_compressed_v6 (ip : Fin (2 ^ 128)) :
    ipAddress (Address.v6 ip none).compressed = some (Address.v6 ip none).parts := by
  obtain ⟨eight, small⟩ := valid_parts (.v6 ip none)
  have noSlash : '/' ∉ compressHextets (digits 65536 8 ip) :=
    not_mem_compressHextets (by decide) (foreign_of_mem (by decide))
  have noDot : '.' ∉ compressHextets (digits 65536 8 ip) :=
    not_mem_compressHextets (by decide) (foreign_of_mem (by decide))
  have noPercent : '%' ∉ compressHextets (digits 65536 8 ip) :=
    not_mem_compressHextets (by decide) (foreign_of_mem (by decide))
  have notFour : ipv4 (compressHextets (digits 65536 8 ip)) = none := by
    rw [ipv4, split_of_not_mem '.' noDot]
    rfl
  rw [compressed, parts, IpAddress.compressed, ipAddress, if_neg noSlash, notFour,
    partition_of_not_mem noPercent]
  simp [ipv6Hextets_compress eight small]

/-- **An address without a zone is read back from its text.** -/
theorem ofText_compressed (a : Address) (plain : a.withoutZone = a) : ofText a.compressed = some a := by
  suffices read : ipAddress a.compressed = some a.parts by
    rw [ofText, read, Option.map_some, ofParts_parts]
  cases a with
  | v4 ip => exact ipAddress_compressed_v4 ip
  | v6 ip scopeId =>
      obtain rfl : none = scopeId := by simpa [withoutZone] using plain
      exact ipAddress_compressed_v6 ip

/-- Only a text with a `%` is read with a zone. -/
theorem withoutZone_of_read {s : Str} {a : Address} (read : ofText s = some a) (plain : '%' ∉ s) :
    a.withoutZone = a := by
  obtain ⟨p, found, rfl⟩ := Option.map_eq_some_iff.1 read
  unfold ipAddress at found
  split at found
  · cases found
  split at found
  · cases found
    rfl
  · rw [partition_of_not_mem plain] at found
    simp only [Bool.false_and, Bool.false_eq_true, if_false] at found
    obtain ⟨hextets, -, rfl⟩ := Option.map_eq_some_iff.1 found
    rfl

end Address

end ApiSecurityPlatform.Python
