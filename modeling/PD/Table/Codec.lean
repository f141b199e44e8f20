import PD.Core.Region
import PD.Lib.GroupCode
import Mathlib.Data.Prod.Lex

/-! # The encoding of keys -/

namespace PD
open List
open GroupCode

def tablePrefix : Key := [116]
def metaPrefix : Key := [109]
def recordPrefix : Key := [114]
def encGroupSize : Nat := 8
def encMarker : UInt8 := 0xFF
def encPad : UInt8 := 0x0

variable (data : Key)

def encodeGroup (idx : Nat) : Key :=
  let remain := data.length - idx
  if encGroupSize ≤ remain then (data.drop idx).take encGroupSize ++ [encMarker - UInt8.ofNat 0]
  else
    let padCount := encGroupSize - remain
    data.drop idx ++ List.replicate padCount encPad ++ [encMarker - UInt8.ofNat padCount]

def encodeBytes : Key :=
  (List.range (data.length / encGroupSize + 1)).flatMap fun i => encodeGroup data (i * encGroupSize)

inductive DecodeError where
  | insufficient
  | invalidMarker (groupBytes : Key)
  | invalidPadding (groupBytes : Key)
  deriving DecidableEq

def DecodeError.format : DecodeError → String
  | .insufficient => "insufficient bytes to decode value"
  | .invalidMarker _ => "invalid marker byte, group bytes %q"
  | .invalidPadding _ => "invalid padding byte, group bytes %q"

def decodeLoop (data b : Key) : Except DecodeError (Key × Key) :=
  if b.length < encGroupSize + 1 then .error .insufficient
  else
    let groupBytes := b.take (encGroupSize+1)
    let group := groupBytes.take encGroupSize
    let marker := groupBytes.getD encGroupSize 0
    let padCount := encMarker - marker
    if UInt8.ofNat encGroupSize < padCount then .error (.invalidMarker groupBytes)
    else
      let realGroupSize := UInt8.ofNat encGroupSize - padCount
      let data := data ++ group.take realGroupSize.toNat
      if padCount ≠ 0 then
        if (group.drop realGroupSize.toNat).all (· == encPad) then .ok (b.drop (encGroupSize+1), data)
        else .error (.invalidPadding groupBytes)
      else decodeLoop data (b.drop (encGroupSize+1))
termination_by b.length
decreasing_by rw [length_drop]; simp only [encGroupSize] at *; omega

def decodeBytes (b : Key) : Except DecodeError (Key × Key) := decodeLoop [] b
def markerOf (n : Nat) : UInt8 := encMarker - UInt8.ofNat (encGroupSize - n)

variable {n : Nat} {b : Key} {v w t1 r1 t2 r2 : Int64}

lemma toNat_markerOf (h : n ≤ encGroupSize) : (markerOf n).toNat = 247 + n := by
  unfold markerOf encMarker
  simp only [encGroupSize] at h ⊢
  rw [UInt8.toNat_sub, UInt8.toNat_ofNat']
  show (2^8 - (8 - n) % 2^8 + 255) % 2^8 = _
  omega

lemma encodeGroup_eq (idx : Nat) : encodeGroup data idx = group encGroupSize encPad markerOf data idx := by
  unfold encodeGroup group markerOf
  simp only
  split
  next h => rw [pack_of_le _ (by rwa [length_drop]), min_eq_left h, Nat.sub_self]
  next h =>
    have hshort : (data.drop idx).length ≤ encGroupSize := by rw [length_drop]; omega
    rw [pack, take_of_length_le hshort, length_drop, min_eq_right (by omega)]

lemma encodeBytes_encode : encodeBytes data = encode encGroupSize encPad markerOf data :=
  flatMap_congr fun _ _ => encodeGroup_eq data _

lemma encodeBytes_eq : encodeBytes data = pack encGroupSize encPad data ++ markerOf (min encGroupSize data.length) ::
  if encGroupSize ≤ data.length then encodeBytes (data.drop encGroupSize) else [] := by
  simp only [encodeBytes_encode]
  exact encode_eq (by decide) encPad markerOf data

example : encodeBytes [1, 2, 3] = [1, 2, 3, 0, 0, 0, 0, 0, 250] ∧
    encodeBytes [1, 2, 3, 4, 5, 6, 7, 8] = [1, 2, 3, 4, 5, 6, 7, 8, 255, 0, 0, 0, 0, 0, 0, 0, 0, 247] := by
  decide

lemma decodeLoop_group {grp : Key} (hlen : grp.length = encGroupSize) (marker : UInt8) (b : Key) :
    decodeLoop data (grp ++ marker :: b) =
      if UInt8.ofNat encGroupSize < encMarker - marker then .error (.invalidMarker (grp ++ [marker])) else
        let n := (UInt8.ofNat encGroupSize - (encMarker - marker)).toNat
        if encMarker - marker ≠ 0 then
          if (grp.drop n).all (· == encPad) then .ok (b, data ++ grp.take n)
          else .error (.invalidPadding (grp ++ [marker]))
        else decodeLoop (data ++ grp.take n) b := by
  have htake : (grp ++ marker :: b).take (encGroupSize+1) = grp ++ [marker] := by
    rw [← hlen, take_length_add_append, take_succ_cons, take_zero]
  have hdrop : (grp ++ marker :: b).drop (encGroupSize+1) = b := by
    rw [← hlen, drop_length_add_append, drop_succ_cons, drop_zero]
  have hgrp : (grp ++ [marker]).take encGroupSize = grp := by rw [← hlen, take_left]
  have hmark : (grp ++ [marker]).getD encGroupSize 0 = marker := by
    rw [← hlen, List.getD_eq_getElem?_getD, List.getElem?_concat_length, Option.getD_some]
  rw [decodeLoop, if_neg (by rw [length_append, length_cons]; omega)]
  simp only [htake, hdrop, hgrp, hmark]

lemma pad_of_marker (h : n ≤ encGroupSize) : (encMarker - markerOf n).toNat = encGroupSize - n := by
  rw [UInt8.toNat_sub, toNat_markerOf h]
  simp only [encGroupSize] at h ⊢
  show (2^8 - (247 + n) + 255) % 2^8 = _
  omega

lemma ok_of_marker (h : n ≤ encGroupSize) : ¬ UInt8.ofNat encGroupSize < encMarker - markerOf n ∧
  (UInt8.ofNat encGroupSize - (encMarker - markerOf n)).toNat = n ∧
  (encMarker - markerOf n ≠ 0 ↔ n < encGroupSize) := by
  have hpad := pad_of_marker h
  have hsize : (UInt8.ofNat encGroupSize).toNat = encGroupSize := rfl
  have hle : encMarker - markerOf n ≤ UInt8.ofNat encGroupSize := by rw [UInt8.le_iff_toNat_le, hpad, hsize]; omega
  refine ⟨not_lt_of_ge hle, ?_, ?_⟩
  · rw [UInt8.toNat_sub_of_le _ _ hle, hpad, hsize]; omega
  · rw [Ne, ← UInt8.toNat_inj, hpad, UInt8.toNat_zero]; omega

lemma decodeLoop_encoded (data d rest : Key) : decodeLoop data (encodeBytes d ++ rest) = .ok (rest, data ++ d) := by
  induction hn : d.length using Nat.strong_induction_on generalizing data d with
  | h n ih =>
    obtain ⟨hok, hreal, hlast⟩ := ok_of_marker (min_le_left encGroupSize d.length)
    rw [encodeBytes_eq, append_assoc, cons_append,
      decodeLoop_group data (pack_length encGroupSize encPad d), if_neg hok]
    simp only [hreal, hlast]
    by_cases hfull : encGroupSize ≤ d.length
    · have hpos : 0 < encGroupSize := by decide
      rw [if_neg (by omega), if_pos hfull, pack_of_le _ hfull, min_eq_left hfull, take_take, min_self,
        ih _ (by rw [length_drop]; omega) _ _ rfl, append_assoc, take_append_drop]
    have hmin : min encGroupSize d.length = d.length := by omega
    have hpack : pack encGroupSize encPad d = d ++ List.replicate (encGroupSize - d.length) encPad := by
      rw [pack, take_of_length_le (by omega)]
    rw [if_pos (by omega), if_neg hfull, hmin, hpack, drop_left, take_left, if_pos (by simp), nil_append]

lemma decodeBytes_encoded (d rest : Key) : decodeBytes (encodeBytes d ++ rest) = .ok (rest, d) :=
  decodeLoop_encoded [] d rest

lemma marker_of_ok {marker : UInt8} (h : ¬ UInt8.ofNat encGroupSize < encMarker - marker) :
  ∃ n ≤ encGroupSize, marker = markerOf n := by
  have hle : (encMarker - marker).toNat ≤ encGroupSize := by
    have h' := UInt8.le_iff_toNat_le.mp (le_of_not_gt h)
    rwa [UInt8.toNat_ofNat'] at h'
  rw [UInt8.toNat_sub] at hle
  change (2^8 - marker.toNat + 255) % 2^8 ≤ 8 at hle
  refine ⟨marker.toNat - 247, by simp only [encGroupSize]; omega, UInt8.toNat_inj.mp ?_⟩
  rw [toNat_markerOf (by simp only [encGroupSize]; omega)]
  omega

lemma eq_replicate_of_all {l : Key} (h : l.all (· == encPad) = true) : l = List.replicate l.length encPad :=
  eq_replicate_iff.mpr ⟨rfl, fun x hx => by simpa using List.all_eq_true.mp h x hx⟩

lemma exists_group (h : ¬ b.length < encGroupSize + 1) :
  ∃ grp marker b', b = grp ++ marker :: b' ∧ grp.length = encGroupSize := by
  have hlt : encGroupSize < b.length := by omega
  refine ⟨b.take encGroupSize, b.get ⟨encGroupSize, hlt⟩, b.drop (encGroupSize+1), ?_, ?_⟩
  · rw [get_eq_getElem, ← drop_eq_getElem_cons hlt, take_append_drop]
  rw [length_take]
  omega

lemma encoded_of_decodeLoop (data b rest d : Key) (h : decodeLoop data b = .ok (rest, d)) :
  ∃ d', d = data ++ d' ∧ b = encodeBytes d' ++ rest := by
  induction hn : b.length using Nat.strong_induction_on generalizing data b with
  | h n ih =>
    by_cases hlong : b.length < encGroupSize + 1
    · rw [decodeLoop, if_pos hlong] at h
      exact absurd h (by simp)
    obtain ⟨grp, marker, b', hb, hgrp⟩ := exists_group hlong
    rw [hb, decodeLoop_group data hgrp] at h
    split at h
    · exact absurd h (by simp)
    next hok =>
      obtain ⟨n', hn', rfl⟩ := marker_of_ok hok
      obtain ⟨-, hreal, hlast⟩ := ok_of_marker hn'
      simp only [hreal, hlast] at h
      split at h
      · -- the last group
        next hshort =>
        split at h
        next hpad =>
          obtain ⟨rfl, rfl⟩ : b' = rest ∧ data ++ grp.take n' = d := by simpa using h
          refine ⟨grp.take n', rfl, ?_⟩
          have hlen : (grp.take n').length = n' := by rw [length_take]; omega
          have hpadded : pack encGroupSize encPad (grp.take n') = grp := by
            have hrep := eq_replicate_of_all hpad
            rw [length_drop, hgrp] at hrep
            rw [pack, hlen, ← hrep, take_of_length_le (by omega), take_append_drop]
          rw [encodeBytes_eq, hpadded, hlen, min_eq_right hn', if_neg (by omega), hb, append_assoc,
            cons_append, nil_append]
        · exact absurd h (by simp)
      next hfull =>
      have hn8 : n' = encGroupSize := by omega
      subst hn8
      have hshorter : b'.length < n := by rw [← hn, hb, length_append, length_cons]; omega
      obtain ⟨d', hd', hb'⟩ := ih _ hshorter _ _ h rfl
      rw [take_of_length_le (le_of_eq hgrp)] at hd'
      refine ⟨grp ++ d', by rw [hd', append_assoc], ?_⟩
      have hle : encGroupSize ≤ (grp ++ d').length := by rw [length_append]; omega
      rw [encodeBytes_eq, if_pos hle, min_eq_left hle, pack_of_le _ hle, ← hgrp, take_left,
        drop_left, hb, hb', append_assoc, cons_append, hgrp]

lemma encoded_of_decodeBytes {rest d : Key} (h : decodeBytes b = .ok (rest, d)) : b = encodeBytes d ++ rest := by
  obtain ⟨d', rfl, hb⟩ := encoded_of_decodeLoop [] b rest d h
  exact hb

/-- **Round trip.** `DecodeBytes` succeeds on the encodings with anything behind them, and on nothing else -/
theorem decodeBytes_ok_iff (b rest d : Key) : decodeBytes b = .ok (rest, d) ↔ b = encodeBytes d ++ rest :=
  ⟨encoded_of_decodeBytes, fun h => h ▸ decodeBytes_encoded d rest⟩

def signMask : UInt64 := 0x8000000000000000
def encodeIntToCmpUint (v : Int64) : UInt64 := v.toUInt64 ^^^ signMask

variable (u : UInt64)

def decodeCmpUintToInt : Int64 := (u ^^^ signMask).toInt64

def putUint64 : Key := [(u >>> 56).toUInt8, (u >>> 48).toUInt8, (u >>> 40).toUInt8, (u >>> 32).toUInt8,
    (u >>> 24).toUInt8, (u >>> 16).toUInt8, (u >>> 8).toUInt8, u.toUInt8]

def uint64 (b : Key) : UInt64 := b.foldl (fun u x => u <<< 8 ||| x.toUInt64) 0
def encodeInt (b : Key) (v : Int64) : Key := b ++ putUint64 (encodeIntToCmpUint v)

def decodeInt (b : Key) : Except DecodeError (Key × Int64) :=
  if b.length < 8 then .error .insufficient
  else .ok (b.drop 8, decodeCmpUintToInt (uint64 (b.take 8)))

lemma putUint64_eq : putUint64 u = (Words.digits 256 8 u.toNat).map UInt8.ofNat := by
  have hbyte : ∀ k : UInt64, k.toNat < 64 → (u >>> k).toUInt8 = UInt8.ofNat (u.toNat / 2^k.toNat % 256) := by
    intro k hk
    apply UInt8.toNat_inj.mp
    rw [UInt64.toNat_toUInt8, UInt64.toNat_shiftRight, Nat.mod_eq_of_lt hk, Nat.shiftRight_eq_div_pow,
      UInt8.toNat_ofNat', Nat.mod_mod]
  have hlast : u.toUInt8 = UInt8.ofNat (u.toNat / 256^0 % 256) := by
    apply UInt8.toNat_inj.mp
    rw [UInt64.toNat_toUInt8, UInt8.toNat_ofNat', Nat.pow_zero, Nat.div_one, Nat.mod_mod]
  unfold putUint64
  rw [hbyte 56 (by decide), hbyte 48 (by decide), hbyte 40 (by decide), hbyte 32 (by decide),
    hbyte 24 (by decide), hbyte 16 (by decide), hbyte 8 (by decide), hlast]
  rfl

lemma putUint64_length : (putUint64 u).length = 8 := rfl

lemma encodeInt_length (b : Key) (v : Int64) : (encodeInt b v).length = b.length + 8 := by
  rw [encodeInt, length_append, putUint64_length]

lemma toNat_encodeIntToCmpUint (v : Int64) : ((encodeIntToCmpUint v).toNat : Int) = v.toInt + 2^63 := by
  have hx := v.toUInt64.toNat_lt
  have hdiv : (v.toUInt64.toNat ^^^ 2^63) / 2^63 = v.toUInt64.toNat / 2^63 ^^^ 1 := by
    rw [Nat.xor_div_two_pow, Nat.div_self (by norm_num)]
  have hmod : (v.toUInt64.toNat ^^^ 2^63) % 2^63 = v.toUInt64.toNat % 2^63 := by
    rw [Nat.xor_mod_two_pow, Nat.mod_self, Nat.xor_zero]
  have hint : v.toInt = if 2 * v.toUInt64.toNat < 2^64 then (v.toUInt64.toNat : Int)
      else v.toUInt64.toNat - (2^64 : Nat) := BitVec.toInt_eq_toNat_cond v.toUInt64.toBitVec
  have hflip : (encodeIntToCmpUint v).toNat = v.toUInt64.toNat ^^^ 2^63 := by
    unfold encodeIntToCmpUint
    rw [UInt64.toNat_xor]
    rfl
  have hsplit := Nat.div_add_mod (v.toUInt64.toNat ^^^ 2^63) (2^63)
  rw [hmod, hdiv] at hsplit
  rw [hflip, hint]
  by_cases hs : v.toUInt64.toNat < 2^63
  · rw [Nat.div_eq_of_lt hs, Nat.mod_eq_of_lt hs] at hsplit
    rw [Nat.zero_xor, Nat.mul_one] at hsplit
    rw [if_pos (by omega)]
    omega
  have hq : v.toUInt64.toNat / 2^63 = 1 := by omega
  rw [hq, Nat.xor_self] at hsplit
  rw [if_neg (by omega)]
  omega

lemma decode_encodeIntToCmpUint (v : Int64) : decodeCmpUintToInt (encodeIntToCmpUint v) = v := by
  unfold decodeCmpUintToInt encodeIntToCmpUint
  rw [UInt64.xor_assoc, UInt64.xor_self, UInt64.xor_zero]
  rfl

lemma uint64_step (x : UInt8) (h : u.toNat < 2^56) : (u <<< 8 ||| x.toUInt64).toNat = u.toNat * 256 + x.toNat := by
  have hx := x.toNat_lt
  rw [UInt64.toNat_or, UInt64.toNat_shiftLeft, UInt8.toNat_toUInt64]
  show u.toNat <<< 8 % 2^64 ||| x.toNat = _
  rw [Nat.mod_eq_of_lt (by rw [Nat.shiftLeft_eq]; omega), ← Nat.shiftLeft_add_eq_or_of_lt hx, Nat.shiftLeft_eq]

lemma uint64_foldl (b : Key) (u : UInt64) (h : (u.toNat + 1) * 256^b.length ≤ 2^64) :
  (b.foldl (fun (u : UInt64) x => u <<< 8 ||| x.toUInt64) u).toNat =
    (b.map UInt8.toNat).foldl (fun acc d => acc * 256 + d) u.toNat := by
  induction b generalizing u with
  | nil => rfl
  | cons x b ih =>
    rw [length_cons, pow_succ] at h
    have hx := x.toNat_lt
    have hpos : 0 < 256^b.length := by positivity
    have hu : u.toNat < 2^56 := by
      have h256 : (u.toNat + 1) * 256 ≤ (u.toNat + 1) * (256^b.length * 256) :=
        Nat.mul_le_mul_left _ (Nat.le_mul_of_pos_left 256 hpos)
      omega
    have hstep := uint64_step u x hu
    rw [foldl_cons, map_cons, foldl_cons, ih _ ?_, hstep]
    rw [hstep]
    calc (u.toNat * 256 + x.toNat + 1) * 256^b.length
        ≤ ((u.toNat + 1) * 256) * 256^b.length := Nat.mul_le_mul_right _ (by omega)
      _ = (u.toNat + 1) * (256^b.length * 256) := by ring
      _ ≤ 2^64 := h

lemma uint64_putUint64 : uint64 (putUint64 u) = u := by
  apply UInt64.toNat_inj.mp
  have hbytes : (putUint64 u).map UInt8.toNat = Words.digits 256 8 u.toNat := by
    rw [putUint64_eq, List.map_map]
    refine (map_congr_left fun d hd => ?_).trans (List.map_id _)
    have hd' := Words.digits_bound 256 8 u.toNat (by norm_num) d hd
    simp only [Function.comp, UInt8.toNat_ofNat', id]
    omega
  unfold uint64
  rw [uint64_foldl _ _ (by rw [putUint64_length]; norm_num), hbytes]
  have hval := Words.value_digits 256 8 u.toNat
  unfold Words.value at hval
  have hu := u.toNat_lt
  rw [UInt64.toNat_zero, hval, Nat.mod_eq_of_lt (by norm_num at hu ⊢; exact hu)]

lemma decodeInt_encoded (v : Int64) (rest : Key) :
  decodeInt (putUint64 (encodeIntToCmpUint v) ++ rest) = .ok (rest, v) := by
  have hlen := putUint64_length (encodeIntToCmpUint v)
  unfold decodeInt
  rw [if_neg (by rw [length_append, hlen]; omega), ← hlen, drop_left, take_left,
    uint64_putUint64, decode_encodeIntToCmpUint]

def bytesCompare (a b : Key) : Int := threeWay a b

lemma markerOf_lt (m n : Nat) (h : m < n) (hn : n ≤ encGroupSize) : markerOf m < markerOf n := by
  rw [UInt8.lt_iff_toNat_lt, toNat_markerOf (by omega), toNat_markerOf hn]
  omega

lemma encodeBytes_lt (a b : Key) (h : a < b) : encodeBytes a < encodeBytes b := by
  rw [encodeBytes_encode, encodeBytes_encode]
  exact encode_lt (by decide) (fun x => UInt8.le_iff_toNat_le.mpr (Nat.zero_le _)) markerOf_lt a b h

lemma encodeInt_lt (h : v.toInt < w.toInt) : putUint64 (encodeIntToCmpUint v) < putUint64 (encodeIntToCmpUint w) := by
  rw [putUint64_eq, putUint64_eq]
  have hv := toNat_encodeIntToCmpUint v
  have hw := toNat_encodeIntToCmpUint w
  have hwlt := (encodeIntToCmpUint w).toNat_lt
  refine Words.map_lt_map UInt8.ofNat (fun d => d < 256) ?_ (Words.digits_bound 256 8 _ (by norm_num))
    (Words.digits_bound 256 8 _ (by norm_num)) (Words.digits_lt 256 8 _ _ (by omega) ?_)
  · intro x y hx hy hxy
    rw [UInt8.lt_iff_toNat_lt, UInt8.toNat_ofNat', UInt8.toNat_ofNat']
    omega
  norm_num at hwlt ⊢
  exact hwlt

def generateTableKey (tableID : Int64) : Key := encodeInt tablePrefix tableID
def generateRowKey (tableID rowID : Int64) : Key := encodeInt (encodeInt tablePrefix tableID ++ recordPrefix) rowID
def idPair (tableID rowID : Int64) : Int ×ₗ Int := toLex (tableID.toInt, rowID.toInt)

lemma tablePart_lt (h : v.toInt < w.toInt) :
  encodeInt tablePrefix v ++ recordPrefix < encodeInt tablePrefix w ++ recordPrefix := by
  have hint : encodeInt tablePrefix v < encodeInt tablePrefix w := append_lt_append rfl (.inr ⟨rfl, encodeInt_lt h⟩)
  have hlen : (encodeInt tablePrefix v).length = (encodeInt tablePrefix w).length := by
    rw [encodeInt_length, encodeInt_length]
  exact append_lt_append hlen (.inl hint)

lemma generateRowKey_lt (h : idPair t1 r1 < idPair t2 r2) : generateRowKey t1 r1 < generateRowKey t2 r2 := by
  have hlen : (encodeInt tablePrefix t1 ++ recordPrefix).length =
      (encodeInt tablePrefix t2 ++ recordPrefix).length := by
    rw [length_append, length_append, encodeInt_length, encodeInt_length]
  refine append_lt_append hlen ?_
  rcases Prod.Lex.lt_iff.mp h with ht | ⟨ht, hr⟩
  · have ht' : t1.toInt < t2.toInt := ht
    exact .inl (tablePart_lt ht')
  have ht' : t1 = t2 := Int64.toInt_inj.mp ht
  have hr' : r1.toInt < r2.toInt := hr
  exact .inr ⟨by rw [ht'], encodeInt_lt hr'⟩

lemma idPair_inj (h : idPair t1 r1 = idPair t2 r2) : t1 = t2 ∧ r1 = r2 := by
  have h' : (t1.toInt, r1.toInt) = (t2.toInt, r2.toInt) := toLex.injective h
  injection h' with ht hr
  exact ⟨Int64.toInt_inj.mp ht, Int64.toInt_inj.mp hr⟩

/-- **Order.** comparing encodings is comparing the keys, and for row keys comparing the pairs of ids -/
theorem encodeBytes_compare :
  (∀ a b : Key, bytesCompare (encodeBytes a) (encodeBytes b) = bytesCompare a b) ∧ ∀ t1 r1 t2 r2 : Int64,
      bytesCompare (encodeBytes (generateRowKey t1 r1)) (encodeBytes (generateRowKey t2 r2)) =
        threeWay (idPair t1 r1) (idPair t2 r2) := by
  have hkeys : ∀ a b : Key, bytesCompare (encodeBytes a) (encodeBytes b) = bytesCompare a b := fun a b =>
    threeWay_congr (encodeBytes_lt a b) (fun h => by rw [h]) (encodeBytes_lt b a)
  refine ⟨hkeys, fun t1 r1 t2 r2 => ?_⟩
  rw [hkeys]
  refine threeWay_congr generateRowKey_lt (fun h => ?_) generateRowKey_lt
  obtain ⟨rfl, rfl⟩ := idPair_inj h
  rfl

def Key.tableID (k : Key) : Int64 :=
  match decodeBytes k with
  | .error _ => 0
  | .ok (_, key) =>
    if tablePrefix.isPrefixOf key then
      match decodeInt (key.drop tablePrefix.length) with
      | .ok (_, tableID) => tableID
      | .error _ => 0
    else 0

def Key.metaOrTable (k : Key) : Bool × Int64 :=
  match decodeBytes k with
  | .error _ => (false, 0)
  | .ok (_, key) =>
    if metaPrefix.isPrefixOf key then (true, 0)
    else if tablePrefix.isPrefixOf key then
      match decodeInt (key.drop tablePrefix.length) with
      | .ok (_, tableID) => (false, tableID)
      | .error _ => (false, 0)
    else (false, 0)

lemma tableID_eq_metaOrTable (k : Key) : Key.tableID k = (Key.metaOrTable k).2 := by
  unfold Key.tableID Key.metaOrTable
  split
  · rfl
  next key _ =>
    by_cases hmeta : metaPrefix.isPrefixOf key
    · -- a meta key has another first byte than a table key
      have htable : tablePrefix.isPrefixOf key = false := by
        cases key with
        | nil => rfl
        | cons =>
          simp only [metaPrefix, tablePrefix, List.isPrefixOf, Bool.and_true, beq_iff_eq] at hmeta ⊢
          rw [← hmeta]
          decide
      rw [if_pos hmeta, htable]
      rfl
    rw [if_neg hmeta]
    split
    · split <;> rfl
    · rfl

lemma metaOrTable_tableKey (tableID : Int64) (suffix : Key) :
  Key.metaOrTable (encodeBytes (generateTableKey tableID ++ suffix)) = (false, tableID) := by
  have hmeta : metaPrefix.isPrefixOf (generateTableKey tableID ++ suffix) = false := rfl
  have htable : tablePrefix.isPrefixOf (generateTableKey tableID ++ suffix) = true := rfl
  have hdrop : (generateTableKey tableID ++ suffix).drop tablePrefix.length =
      putUint64 (encodeIntToCmpUint tableID) ++ suffix := rfl
  have hdecode := decodeBytes_encoded (generateTableKey tableID ++ suffix) []
  rw [append_nil] at hdecode
  unfold Key.metaOrTable
  simp only [hdecode, hmeta, htable, hdrop, decodeInt_encoded]
  rfl

/-- **Table keys decode to their table**, whatever is behind them, and the two decoders agree -/
theorem table_keys_decode : (∀ (t : Int64) (s : Key), Key.tableID (encodeBytes (generateTableKey t ++ s)) = t ∧
    Key.metaOrTable (encodeBytes (generateTableKey t ++ s)) = (false, t)) ∧
  (∀ (t r : Int64) (s : Key), Key.tableID (encodeBytes (generateRowKey t r ++ s)) = t ∧
    Key.metaOrTable (encodeBytes (generateRowKey t r ++ s)) = (false, t)) ∧
  ∀ (k : Key) (t : Int64), Key.metaOrTable k = (false, t) → t ≠ 0 → Key.tableID k = t := by
  have htable : ∀ (t : Int64) (s : Key), Key.tableID (encodeBytes (generateTableKey t ++ s)) = t ∧
      Key.metaOrTable (encodeBytes (generateTableKey t ++ s)) = (false, t) := by
    intro t s
    rw [tableID_eq_metaOrTable, metaOrTable_tableKey]
    exact ⟨rfl, rfl⟩
  refine ⟨htable, fun t r s => ?_, fun k t h _ => ?_⟩
  · -- a row key is a table key with something behind it
    have hrow : generateRowKey t r ++ s =
        generateTableKey t ++ (recordPrefix ++ putUint64 (encodeIntToCmpUint r) ++ s) := by
      simp [generateRowKey, generateTableKey, encodeInt]
    rw [hrow]
    exact htable t _
  · rw [tableID_eq_metaOrTable, h]

end PD
