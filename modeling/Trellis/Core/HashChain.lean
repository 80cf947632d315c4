import Mathlib.Data.List.Chain

/-!
# Hash chains

A chain is a list whose entries carry a hash of their own content and the hash of the entry before
them. Without collisions, the last hash determines every entry up to what the digest does not
cover.
-/

namespace Trellis.Core

open List Nat

/-! ## Digests -/

def isHexDigit (c : Char) : Bool :=
  c ∈ "0123456789abcdef".toList

/-- A hash function with hexadecimal digests, as `createHash("sha256")` with
`digest("hex")` is one. -/
structure HexDigest where
  digest : String → String
  hex : ∀ s, ∀ c ∈ (digest s).toList, isHexDigit c = true
  digest_ne : ∀ s, digest s ≠ ""

theorem HexDigest.colon_notMem (h : HexDigest) (s : String) : ':' ∉ (h.digest s).toList := by
  intro hmem
  have hcolon := h.hex s ':' hmem
  revert hcolon
  decide

/-- Six hexadecimal digits, which is enough for every character. -/
def hexBlock (n : Nat) : List Char :=
  [n / 1048576 % 16, n / 65536 % 16, n / 4096 % 16, n / 256 % 16, n / 16 % 16, n % 16].map
    digitChar

theorem isHexDigit_digitChar (n : Nat) : isHexDigit (digitChar (n % 16)) = true := by
  have hall : ∀ m : Fin 16, isHexDigit (digitChar m.1) = true := by decide
  exact hall ⟨n % 16, mod_lt n (by decide)⟩

theorem digitChar_mod_inj {m n : Nat} (h : digitChar (m % 16) = digitChar (n % 16)) :
    m % 16 = n % 16 := by
  have hall : ∀ a b : Fin 16, digitChar a.1 = digitChar b.1 → a = b := by decide
  exact congrArg Fin.val
    (hall ⟨m % 16, mod_lt m (by decide)⟩ ⟨n % 16, mod_lt n (by decide)⟩ h)

theorem hexBlock_inj {m n : Nat} (hm : m < 16777216) (hn : n < 16777216)
    (h : hexBlock m = hexBlock n) : m = n := by
  simp only [hexBlock, map_cons, map_nil, cons.injEq, and_true] at h
  obtain ⟨h₅, h₄, h₃, h₂, h₁, h₀⟩ := h
  have h₅ := digitChar_mod_inj h₅
  have h₄ := digitChar_mod_inj h₄
  have h₃ := digitChar_mod_inj h₃
  have h₂ := digitChar_mod_inj h₂
  have h₁ := digitChar_mod_inj h₁
  have h₀ := digitChar_mod_inj h₀
  omega

/-- A code without empty words, whose words can be cut off a text in one way, has one text for each
list. -/
theorem flatMap_injective {α β : Type} {f : α → List β} (hne : ∀ a, f a ≠ [])
    (hcut : ∀ {a b s t}, f a ++ s = f b ++ t → a = b ∧ s = t) :
    Function.Injective fun as : List α => as.flatMap f := by
  intro as bs h
  induction as generalizing bs with
  | nil => cases bs <;> simp_all
  | cons a as ih =>
    cases bs with
    | nil => simp_all
    | cons b bs =>
      obtain ⟨rfl, hrest⟩ := hcut (flatMap_cons.symm.trans (h.trans flatMap_cons))
      rw [ih hrest]

theorem hexBlocks_inj : Function.Injective fun cs : List Char =>
    cs.flatMap fun c => hexBlock c.toNat := by
  have hlt : ∀ c : Char, c.toNat < 16777216 := by
    intro c
    have hvalid : c.toNat < 0xd800 ∨ 0xdfff < c.toNat ∧ c.toNat < 0x110000 := c.valid
    omega
  refine flatMap_injective (by simp [hexBlock]) fun {c c' s t} h => ?_
  obtain ⟨hblock, hrest⟩ := append_inj h rfl
  exact ⟨Char.toNat_inj.mp (hexBlock_inj (hlt c) (hlt c') hblock), hrest⟩

/-- The text written out in hexadecimal digits: a digest without collisions. -/
def hexCode : HexDigest where
  digest s := String.ofList ('0' :: s.toList.flatMap fun c => hexBlock c.toNat)
  hex s c hc := by
    simp only [String.toList_ofList, List.mem_cons, List.mem_flatMap] at hc
    rcases hc with rfl | ⟨a, -, hc⟩
    · decide
    · simp only [hexBlock, List.map_cons, List.map_nil, List.mem_cons, List.not_mem_nil,
        or_false] at hc
      rcases hc with rfl | rfl | rfl | rfl | rfl | rfl <;> exact isHexDigit_digitChar _
  digest_ne s h := by
    have hchars := congrArg String.toList h
    simp at hchars

theorem hexCode_injective : Function.Injective hexCode.digest := by
  intro s s' h
  have hchars := congrArg String.toList h
  simp only [hexCode, String.toList_ofList, cons.injEq, true_and] at hchars
  exact String.toList_inj.mp (hexBlocks_inj hchars)

/-! ## Chains -/

section Chain

variable {E H : Type} (link : E → Option H) (hash digest : E → H)

/-- Every entry links to the hash before it and carries its own digest. -/
def Linked : Option H → List E → Prop
  | _, [] => True
  | prev, e :: es => link e = prev ∧ hash e = digest e ∧ Linked (some (hash e)) es

def lastHash : Option H → List E → Option H
  | prev, [] => prev
  | _, e :: es => lastHash (some (hash e)) es

variable {link hash digest}

theorem lastHash_concat (prev : Option H) (es : List E) (e : E) :
    lastHash hash prev (es ++ [e]) = some (hash e) := by
  induction es generalizing prev with
  | nil => rfl
  | cons e' es ih => exact ih (some (hash e'))

theorem lastHash_eq_getLast (es : List E) : lastHash hash none es = es.getLast?.map hash := by
  rcases eq_nil_or_concat es with rfl | ⟨es, e, rfl⟩
  · rfl
  · simp [lastHash_concat]

variable {prev : Option H}

theorem linked_append {es rest : List E} :
    Linked link hash digest prev (es ++ rest) ↔ Linked link hash digest prev es ∧
        Linked link hash digest (lastHash hash prev es) rest := by
  induction es generalizing prev with
  | nil => simp [Linked, lastHash]
  | cons e es ih => simp [Linked, lastHash, ih, and_assoc]

theorem linked_concat {es : List E} {e : E} : Linked link hash digest prev (es ++ [e]) ↔
    Linked link hash digest prev es ∧ link e = lastHash hash prev es ∧ hash e = digest e := by
  rw [linked_append]
  simp [Linked]

theorem Linked.hash_eq {es : List E} (h : Linked link hash digest prev es) :
    ∀ e ∈ es, hash e = digest e := by
  induction es generalizing prev with
  | nil =>
    intro e he
    cases he
  | cons e es ih =>
    intro e' he'
    rcases mem_cons.mp he' with rfl | he'
    · exact h.2.1
    · exact ih h.2.2 e' he'

theorem Linked.isChain {es : List E} (h : Linked link hash digest prev es) :
    es.IsChain fun e e' => link e' = some (hash e) := by
  induction es generalizing prev with
  | nil => exact .nil
  | cons e es ih =>
    refine isChain_cons.mpr ⟨fun e' he' => ?_, ih h.2.2⟩
    cases es with
    | nil => cases he'
    | cons e₁ es =>
      obtain rfl := Option.some.inj he'
      exact h.2.2.1

theorem Linked.link_cases {es : List E} (h : Linked link hash digest prev es)
    {e : E} (he : e ∈ es) : link e = prev ∨ ∃ e' ∈ es, link e = some (hash e') := by
  induction es generalizing prev with
  | nil => cases he
  | cons a es ih =>
    rcases mem_cons.mp he with rfl | he
    · exact .inl h.1
    · rcases ih h.2.2 he with hlink | ⟨e', he', hlink⟩
      · exact .inr ⟨a, mem_cons_self, hlink⟩
      · exact .inr ⟨e', mem_cons_of_mem _ he', hlink⟩

/-- Two chains of one length that end with one hash agree in what the digest covers.  The
induction also returns that they start from one hash, which is what makes the entries before
agree. -/
theorem Linked.commit {Same : E → E → Prop} {prev prev' : Option H} {es es' : List E}
    (h : Linked link hash digest prev es) (h' : Linked link hash digest prev' es')
    (hcollision : ∀ e ∈ es, ∀ e' ∈ es', digest e = digest e' → Same e e' ∧ link e = link e')
    (hlength : es.length = es'.length) (hlast : es.getLast?.map hash = es'.getLast?.map hash) :
    List.Forall₂ (fun e e' => Same e e' ∧ link e = link e' ∧ hash e = hash e') es es' ∧
      (es ≠ [] → prev = prev') := by
  induction es generalizing prev prev' es' with
  | nil =>
    obtain rfl := length_eq_zero_iff.mp hlength.symm
    exact ⟨.nil, fun hne => absurd rfl hne⟩
  | cons e es ih =>
    cases es' with
    | nil => cases hlength
    | cons e' es' =>
      obtain ⟨hlink, hdigest, hrest⟩ := h
      obtain ⟨hlink', hdigest', hrest'⟩ := h'
      have hlength' : es.length = es'.length := succ.inj hlength
      have hrestAgree := ih hrest hrest' (fun a ha b hb => hcollision a (mem_cons_of_mem _ ha) b
          (mem_cons_of_mem _ hb)) hlength'
      have hhash : hash e = hash e' ∧
          List.Forall₂ (fun e e' => Same e e' ∧ link e = link e' ∧ hash e = hash e') es es' := by
        by_cases hnil : es = []
        · subst hnil
          obtain rfl := length_eq_zero_iff.mp hlength'.symm
          exact ⟨Option.some.inj hlast, .nil⟩
        · have hnil' : es' ≠ [] := by
            rintro rfl
            exact hnil (length_eq_zero_iff.mp hlength')
          have hlast' : es.getLast?.map hash = es'.getLast?.map hash := by
            rwa [getLast?_cons_of_ne_nil hnil, getLast?_cons_of_ne_nil hnil'] at hlast
          obtain ⟨hforall, hstart⟩ := hrestAgree hlast'
          exact ⟨Option.some.inj (hstart hnil), hforall⟩
      obtain ⟨hsame, hlinks⟩ := hcollision e mem_cons_self e' mem_cons_self
        (by rw [← hdigest, ← hdigest', hhash.1])
      refine ⟨.cons ⟨hsame, hlinks, hhash.1⟩ hhash.2, fun _ => ?_⟩
      rw [← hlink, ← hlink', hlinks]

end Chain

/-! ## Positions -/

section Positions

variable {E : Type} (position : E → Int)

def Consecutive : Int → List E → Prop
  | _, [] => True
  | n, e :: es => position e = n ∧ Consecutive (n + 1) es

variable {position} {n : Int}

theorem consecutive_concat {es : List E} {e : E} : Consecutive position n (es ++ [e]) ↔
    Consecutive position n es ∧ position e = n + es.length := by
  induction es generalizing n with
  | nil => simp [Consecutive]
  | cons e' es ih =>
    have hnext : n + 1 + (es.length : Int) = n + ((e' :: es).length : Int) := by
      simp only [length_cons]
      omega
    rw [cons_append, Consecutive, Consecutive, ih, hnext, and_assoc]

theorem Consecutive.getLast {es : List E} (h : Consecutive position n es) {e : E}
    (he : es.getLast? = some e) : position e = n + es.length - 1 := by
  obtain ⟨front, rfl⟩ := getLast?_eq_some_iff.mp he
  rw [(consecutive_concat.mp h).2, length_append, length_singleton]
  omega

theorem Consecutive.getElem {es : List E} (h : Consecutive position n es) {i : Nat}
    (hi : i < es.length) : position es[i] = n + i := by
  induction es generalizing n i with
  | nil => cases hi
  | cons e es ih =>
    cases i with
    | zero => simpa using h.1
    | succ i =>
      have hrest := ih h.2 (lt_of_succ_lt_succ hi)
      rw [getElem_cons_succ]
      omega

theorem Consecutive.mem_bounds {es : List E} (h : Consecutive position n es) :
    ∀ e ∈ es, n ≤ position e ∧ position e < n + es.length := by
  intro e he
  obtain ⟨i, hi, rfl⟩ := getElem_of_mem he
  have hposition := h.getElem hi
  omega

theorem Consecutive.getLast?_of_mem {es : List E} (h : Consecutive position n es)
    {e : E} (he : e ∈ es) (hlast : n + es.length - 1 ≤ position e) : es.getLast? = some e := by
  rcases eq_nil_or_concat es with rfl | ⟨front, last, rfl⟩
  · cases he
  · rw [concat_eq_append] at *
    rcases mem_append.mp he with hfront | hmem
    · have hlt := (consecutive_concat.mp h).1.mem_bounds e hfront
      rw [length_append, length_singleton] at hlast
      omega
    · rw [mem_singleton.mp hmem, getLast?_concat]

theorem Consecutive.exists_mem {es : List E} (h : Consecutive position n es) {k : Int}
    (hlow : n ≤ k) (hhigh : k < n + es.length) : ∃ e ∈ es, position e = k := by
  have hi : (k - n).toNat < es.length := by omega
  have hposition := h.getElem hi
  exact ⟨_, getElem_mem hi, by omega⟩

end Positions

end Trellis.Core
