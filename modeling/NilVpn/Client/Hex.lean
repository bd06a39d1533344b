import NilVpn.SecureStore.Vault

/-!
# The hex decoders of the clients

client/src-tauri/src/tokens.rs:827-836, nil-android/src/lib.rs:383-392, nil-apple/src/lib.rs:407-416
-/

namespace NilVpn.Client
open Base List
open SecureStore (radixByte radixPairs)

inductive Panic
  | notCharBoundary
  deriving DecidableEq

/-- The slices `i..i+2`, up to the first that does not parse. A slice begins where the one before
has ended; one that ends inside a character panics. -/
def hexPairs : Bytes → Except Panic (Option Bytes)
  | hi::lo::rest =>
    if rest.head?.any isTail then .error .notCharBoundary
    else
      match radixByte hi lo with
      | none => .ok none
      | some b => (hexPairs rest).map (·.map (b::·))
  | _ => .ok (some [])

def decodeText (s : Str) : Except Panic (Option Bytes) :=
  if (trim s.val).length % 2≠0 then .ok none else hexPairs (trim s.val)

def tokensFromHex : Str → Except Panic (Option Bytes) := decodeText
def hexToBytes : Str → Except Panic (Option Bytes) := decodeText
def hex : Str → Except Panic (Option Bytes) := decodeText

/-- No slice that is reached ends inside a character, and a text that is accepted has no `+` for a
first digit. -/
def Plain (t : Bytes) : Prop := t.length % 2=0 →
  (∀ k, (radixPairs (t.take (2*k))).isSome → t[2*k+2]?.any isTail=false) ∧
    ((radixPairs t).isSome → ∀ k, t[2*k]?≠some 43)

/-- The values of the digits of `b`, two for each byte. -/
def halves (b : Bytes) : List ℕ := b.flatMap fun x => [x.toNat / 16,x.toNat % 16]

lemma radixPairs_isSome (hi lo : UInt8) (r : Bytes) :
    (radixPairs (hi::lo::r)).isSome ↔ (radixByte hi lo).isSome ∧ (radixPairs r).isSome := by
  rw [radixPairs]
  cases radixByte hi lo <;> cases radixPairs r <;> simp

lemma hexPairs_panics_iff (t : Bytes) : hexPairs t=.error .notCharBoundary ↔
    ∃ k, (radixPairs (t.take (2*k))).isSome ∧ t[2*k+2]?.any isTail := by
  induction t using fromHex.induct with
  | case1 | case2 => simp [hexPairs]
  | case3 hi lo r ih =>
    -- the first slice, or one of those after it
    have hz : (radixPairs ((hi::lo::r).take (2*0))).isSome ∧ (hi::lo::r)[2*0+2]?.any isTail ↔
        r.head?.any isTail := by
      simp [radixPairs,head?_eq_getElem?]
    have hs (k : ℕ) : (radixPairs ((hi::lo::r).take (2*(k+1)))).isSome ∧
          (hi::lo::r)[2*(k+1)+2]?.any isTail ↔
        (radixByte hi lo).isSome ∧ (radixPairs (r.take (2*k))).isSome ∧ r[2*k+2]?.any isTail := by
      rw [← and_assoc,← radixPairs_isSome]
      rfl
    rw [← Nat.or_exists_add_one,hz,hexPairs]
    simp only [hs,exists_and_left,← ih]
    split
    · simp_all
    · cases radixByte hi lo with
      | none => simp_all
      | some b => cases hexPairs r <;> simp_all [Except.map]

lemma hexPairs_ok {t : Bytes} (he : t.length % 2=0) (h : hexPairs t≠.error .notCharBoundary) :
    hexPairs t=.ok (radixPairs t) := by
  induction t using fromHex.induct with
  | case1 => rfl
  | case2 x => cases he
  | case3 hi lo r ih =>
    rw [hexPairs] at h ⊢
    split at h
    · exact absurd rfl h
    · rename_i hr
      rw [if_neg hr,radixPairs]
      cases hb : radixByte hi lo with
      | none => rfl
      | some b =>
        rw [hb] at h
        have hl : r.length % 2=0 := by
          rw [length_cons,length_cons] at he
          omega
        have hn : hexPairs r≠.error .notCharBoundary := fun hf => h (by rw [hf]; rfl)
        dsimp only
        rw [ih hl hn]
        cases radixPairs r <;> rfl

lemma radixPairs_eq_iff (t : Bytes) :
    radixPairs t=fromHex t ↔ ((radixPairs t).isSome → ∀ k, t[2*k]?≠some 43) := by
  induction t using fromHex.induct with
  | case1 | case2 => simp [radixPairs,fromHex]
  | case3 hi lo r ih =>
    have hs : (∀ k, (hi::lo::r)[2*k]?≠some 43) ↔ hi≠43 ∧ ∀ k, r[2*k]?≠some 43 := by
      rw [← Nat.and_forall_add_one]
      simp [Nat.mul_add]
    rw [hs]
    by_cases hp : hi=43
    · have hn : fromHex (hi::lo::r)=none := by
        rw [hp]
        rfl
      rw [hn,← Option.isNone_iff_eq_none]
      cases radixPairs (hi::lo::r) <;> simp [hp]
    · simp only [radixPairs,fromHex,radixByte,if_neg hp]
      cases nib hi with
      | none => simp
      | some h =>
        cases nib lo with
        | none => simp
        | some l => cases hr : radixPairs r <;> cases hf : fromHex r <;> simp_all

lemma nib_lt {b : UInt8} {n : ℕ} (h : nib b=some n) : n<16 := by
  grind [nib,UInt8.le_iff_toNat_le,UInt8.toNat_ofNat]

lemma ofNat_halves {h l : ℕ} (hh : h<16) (hl : l<16) (x : UInt8) :
    UInt8.ofNat (16*h+l)=x ↔ h=x.toNat / 16 ∧ l=x.toNat % 16 := by
  constructor
  · rintro rfl
    rw [UInt8.toNat_ofNat_of_lt' (show 16*h+l<256 by omega)]
    omega
  · rintro ⟨rfl,rfl⟩
    rw [Nat.div_add_mod,UInt8.ofNat_toNat]

lemma fromHex_eq_some_iff (t b : Bytes) : fromHex t=some b ↔ t.map nib=(halves b).map some := by
  induction t using fromHex.induct generalizing b with
  | case1 | case2 => cases b <;> simp [fromHex,halves]
  | case3 hi lo r ih =>
    cases hh : nib hi with
    | none => cases b <;> simp [fromHex,halves,hh]
    | some h =>
      cases hl : nib lo with
      | none => cases b <;> simp [fromHex,halves,hh,hl]
      | some l =>
        have he : fromHex (hi::lo::r)=(fromHex r).map (UInt8.ofNat (16*h+l)::·) := by
          rw [fromHex,hh,hl]
          cases fromHex r <;> rfl
        rw [he,map_cons,map_cons,hh,hl,Option.map_eq_some_iff]
        cases b with
        | nil => simp [halves]
        | cons x b =>
          have hc : halves (x::b)=x.toNat / 16::x.toNat % 16::halves b := rfl
          simp only [hc,List.cons.injEq,map_cons,Option.some.injEq,ofNat_halves (nib_lt hh) (nib_lt hl),ih]
          grind

/-- Agreement with the decoder of the protocol. -/
lemma decodeText_iff (s : Str) : decodeText s=.ok (fromHex (trim s.val)) ↔ Plain (trim s.val) := by
  generalize ht : trim s.val=t
  rw [decodeText,ht,Plain]
  by_cases he : t.length % 2=0
  · rw [if_neg (not_not.mpr he),← radixPairs_eq_iff t]
    have hp:=hexPairs_panics_iff t
    by_cases hf : hexPairs t=.error .notCharBoundary
    · obtain ⟨k,hk,hc⟩ := hp.mp hf
      rw [hf]
      refine iff_of_false nofun fun h => ?_
      rw [(h he).1 k hk] at hc
      cases hc
    · rw [hexPairs_ok he hf,Except.ok.injEq]
      refine ⟨fun h _ => ⟨fun k hk => ?_,h⟩,fun h => (h he).2⟩
      exact Bool.eq_false_iff.mpr fun hc => hf (hp.mpr ⟨k,hk,hc⟩)
  · have hn : fromHex t=none := by
      cases hf : fromHex t with
      | none => rfl
      | some b =>
        have:=fromHex_length t b hf
        omega
    simp [he,hn]

lemma plain_lowerHex {t : Bytes} (h : ∀ b∈t, isLowerHex b) : Plain t := by
  refine fun _ => ⟨fun k _ => ?_,fun _ k hk => ?_⟩
  · cases hb : t[2*k+2]? with
    | none => rfl
    | some b => exact not_isTail (isAscii_lowerHex t h b (mem_of_getElem? hb))
  · cases h 43 (mem_of_getElem? hk)

theorem client_hex_agrees_iff (s : Str) : (∀ decode∈[tokensFromHex,hexToBytes,hex],
      (decode s=.ok (fromHex (trim s.val)) ↔ Plain (trim s.val)) ∧
      (Plain (trim s.val) → ∀ b, decode s=.ok (some b) ↔ (trim s.val).map nib=(halves b).map some)) ∧
    ∀ b hutf, tokensFromHex ⟨toHex b,hutf⟩=.ok (some b) := by
  refine ⟨fun decode hd => ?_,fun b hutf => ?_⟩
  · have hdecode : decode=decodeText := by
      simp only [mem_cons,not_mem_nil,or_false] at hd
      rcases hd with rfl | rfl | rfl <;> rfl
    rw [hdecode]
    refine ⟨decodeText_iff s,fun hp b => ?_⟩
    rw [(decodeText_iff s).mpr hp,Except.ok.injEq,fromHex_eq_some_iff]
  · have ht : trim (toHex b)=toHex b := trim_word _ (isWord_lowerHex _ (toHex_lowerHex b))
    have hp : Plain (trim (toHex b)) := ht.symm ▸ plain_lowerHex (toHex_lowerHex b)
    rw [tokensFromHex,(decodeText_iff ⟨toHex b,hutf⟩).mpr hp,ht,fromHex_toHex]

/-- The texts `+5` and `a€`. -/
theorem client_hex_differs : tokensFromHex ⟨[43,53],by decide⟩=.ok (some [5]) ∧ fromHex (trim [43,53])=none ∧
    tokensFromHex ⟨[97,0xE2,0x82,0xAC],by decide⟩=.error .notCharBoundary := by
  decide
end NilVpn.Client
