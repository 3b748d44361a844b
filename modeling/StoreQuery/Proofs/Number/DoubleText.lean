import StoreQuery.Proofs.Number.Decimal
import StoreQuery.Proofs.Number.Spacing
/-!
Floats and their text. The text of a float spells a number that rounds to it, so different floats have
different texts.
-/
namespace StoreQuery.Double

variable {x y : Double} {i : RoundingInterval} {d scale : Nat} {p : Int}

theorem RoundingInterval.holds_iff (i : RoundingInterval) (n scale : Nat) :
    (if i.closed = true then decide (i.low * scale ≤ n ∧ n ≤ i.high * scale)
      else decide (i.low * scale < n ∧ n < i.high * scale)) = true ↔ i.Holds n scale := by
  simp only [Holds]
  cases i.closed with
  | true => simp
  | false =>
    simp only [Bool.false_eq_true, if_false, decide_eq_true_eq, forall_const]
    omega

theorem gridPoint?_holds (h : gridPoint? i scale p = some d) :
    0 < d ∧ i.Holds (d * (10 ^ p.toNat * scale)) (10 ^ (-p).toNat) := by
  simp only [gridPoint?] at h
  generalize 10 ^ p.toNat * scale = grid at h ⊢
  generalize (10 ^ (-p).toNat : Nat) = up at h ⊢
  generalize i.value * up / grid = below at h
  rw [← RoundingInterval.holds_iff]
  split at h
  · rename_i hbelow habove
    rw [Bool.and_eq_true, decide_eq_true_eq] at hbelow
    cases h
    split
    · exact hbelow
    · exact ⟨Nat.succ_pos below, habove⟩
  · rename_i hbelow _
    rw [Bool.and_eq_true, decide_eq_true_eq] at hbelow
    cases h
    exact hbelow
  · rename_i _ habove
    cases h
    exact ⟨Nat.succ_pos below, habove⟩
  · cases h

/-- On a grid that is finer than the interval the point below the value will do. -/
theorem gridPoint?_isSome (hlow : i.low < i.value) (hhigh : i.value < i.high)
    (hfine : 10 ^ p.toNat * scale < 10 ^ (-p).toNat) (hscale : 0 < scale) :
    (gridPoint? i scale p).isSome = true := by
  have hgrid : 0 < 10 ^ p.toNat * scale := Nat.mul_pos (Nat.pow_pos (by decide)) hscale
  simp only [gridPoint?]
  generalize 10 ^ p.toNat * scale = grid at hfine hgrid ⊢
  generalize (10 ^ (-p).toNat : Nat) = up at hfine ⊢
  have hbelow : i.value * up / grid * grid ≤ i.value * up := Nat.div_mul_le_self _ _
  have habove : i.value * up < (i.value * up / grid + 1) * grid := by
    rw [Nat.mul_comm _ grid]
    exact Nat.lt_mul_div_succ _ hgrid
  generalize i.value * up / grid = below at hbelow habove ⊢
  have hstep : (i.low + 1) * up ≤ i.value * up := Nat.mul_le_mul_right up hlow
  have hend : i.value * up < i.high * up := Nat.mul_lt_mul_of_pos_right hhigh (by omega)
  rw [Nat.succ_mul] at hstep habove
  have hholds : i.Holds (below * grid) up := ⟨⟨by omega, by omega⟩, fun _ => ⟨by omega, by omega⟩⟩
  have hpos : 0 < below := by
    apply Nat.pos_of_ne_zero
    rintro rfl
    omega
  rw [(RoundingInterval.holds_iff _ _ _).mpr hholds, decide_eq_true hpos]
  split <;> trivial

/-- The interval of a number that is not zero reaches to both sides of it. -/
theorem value_within (h : x.magnitude ≠ 0) :
    x.roundingInterval.low < x.roundingInterval.value ∧
      x.roundingInterval.value < x.roundingInterval.high := by
  have hplace : (0 : Nat) < 2 ^ x.shift := Nat.two_pow_pos _
  simp only [roundingInterval]
  split <;> omega

/-- The exponents that are tried, the coarsest grid first. -/
def exponents : List Int := (List.range 650).map fun (k : Nat) => 310 - (k : Int)

theorem mem_exponents : p ∈ exponents ↔ -339 ≤ p ∧ p ≤ 310 := by
  simp only [exponents, List.mem_map, List.mem_range]
  constructor
  · rintro ⟨k, hk, rfl⟩
    omega
  · intro h
    exact ⟨(310 - p).toNat, by omega, by omega⟩

theorem pairwise_exponents : exponents.Pairwise fun p q => q < p := by
  apply List.pairwise_map.mpr
  apply List.pairwise_lt_range.imp
  intro j k hlt
  omega

/-- What is written is a grid point, and no coarser grid has one. -/
structure Coarsest (x : Double) (d : Nat) (p : Int) : Prop where
  point : gridPoint? x.roundingInterval (4 * unit) p = some d
  coarsest : ∀ q ∈ exponents, (gridPoint? x.roundingInterval (4 * unit) q).isSome = true → q ≤ p

theorem coarsest_shortest (h : x.magnitude ≠ 0) : x.Coarsest x.shortest.1 x.shortest.2 := by
  have hfine : 10 ^ (-339 : Int).toNat * (4 * unit) < 10 ^ (-(-339 : Int)).toNat := by
    decide +kernel
  obtain ⟨hlow, hhigh⟩ := value_within h
  have hfinest := gridPoint?_isSome hlow hhigh hfine (Nat.mul_pos (by decide) unit_pos)
  have hshortest : x.shortest = (exponents.findSome? fun p =>
    (gridPoint? x.roundingInterval (4 * unit) p).map fun d => (d, p)).getD (0, 0) := rfl
  cases hfound : exponents.findSome? fun p =>
      (gridPoint? x.roundingInterval (4 * unit) p).map fun d => (d, p) with
  | none =>
    have hnone := List.findSome?_eq_none_iff.mp hfound (-339) (mem_exponents.mpr (by omega))
    rw [Option.map_eq_none_iff.mp hnone] at hfinest
    cases hfinest
  | some r =>
    obtain ⟨before, p, after, hsplit, hpoint, hbefore⟩ := List.findSome?_eq_some_iff.mp hfound
    obtain ⟨d, hd, rfl⟩ := Option.map_eq_some_iff.mp hpoint
    rw [hshortest, hfound]
    refine ⟨hd, ?_⟩
    intro q hq hsome
    have hordered := pairwise_exponents
    rw [hsplit] at hq hordered
    rcases List.mem_append.mp hq with hq | hq
    · rw [Option.map_eq_none_iff.mp (hbefore q hq)] at hsome
      cases hsome
    · rcases List.mem_cons.mp hq with rfl | hq
      · exact Int.le_refl _
      · have hrest := (List.pairwise_append.mp hordered).2.1
        exact Int.le_of_lt ((List.pairwise_cons.mp hrest).1 q hq)

def places (cs : List Char) : Nat := (cs.dropWhile (· ≠ '.')).length - 1

def spelled (cs : List Char) : Nat := Decimal.value (cs.filter (· ≠ '.'))

theorem ne_point_of_mem_digits {n : Nat} {c : Char} (h : c ∈ Decimal.digits n) : c ≠ '.' := by
  rintro rfl
  exact absurd (Decimal.isDigit_of_mem_digits h) (by decide)

theorem dropWhile_pointless {cs : List Char} (h : ∀ c ∈ cs, c ≠ '.') (rest : List Char) :
    (cs ++ rest).dropWhile (· ≠ '.') = rest.dropWhile (· ≠ '.') :=
  List.dropWhile_append_of_pos fun c hc => decide_eq_true (h c hc)

theorem filter_pointless {cs : List Char} (h : ∀ c ∈ cs, c ≠ '.') : cs.filter (· ≠ '.') = cs :=
  List.filter_eq_self.mpr fun c hc => decide_eq_true (h c hc)

/-- A run without a point. -/
theorem pointless (cs : List Char) (h : ∀ c ∈ cs, c ≠ '.') :
    places cs = 0 ∧ spelled cs = Decimal.value cs := by
  have hnone := dropWhile_pointless h []
  rw [List.append_nil] at hnone
  rw [places, hnone, spelled, filter_pointless h]
  exact ⟨rfl, rfl⟩

/-- A point between two runs. -/
theorem pointed {before after : List Char} (hbefore : ∀ c ∈ before, c ≠ '.')
    (hafter : ∀ c ∈ after, c ≠ '.') :
    places (before ++ '.' :: after) = after.length ∧
      spelled (before ++ '.' :: after) = Decimal.value (before ++ after) := by
  constructor
  · rw [places, dropWhile_pointless hbefore]
    rfl
  · rw [spelled, List.filter_append, filter_pointless hbefore]
    congr 2
    exact filter_pointless hafter

theorem ne_point_of_mem_zeros {k : Nat} {c : Char} (h : c ∈ List.replicate k '0') : c ≠ '.' := by
  rw [List.eq_of_mem_replicate h]
  decide

/-- What is written spells the grid point: the places tell its grid. -/
theorem positional_spells (d : Nat) (p : Int) :
    places (positional d p) = (-p).toNat ∧ spelled (positional d p) = d * 10 ^ p.toNat := by
  simp only [positional]
  by_cases hp : 0 ≤ p
  · rw [if_pos hp, Int.toNat_of_nonpos (show -p ≤ 0 by omega)]
    obtain ⟨hplaces, hspelled⟩ := pointless (Decimal.digits d ++ List.replicate p.toNat '0')
      fun c hc => (List.mem_append.mp hc).elim ne_point_of_mem_digits ne_point_of_mem_zeros
    rw [hplaces, hspelled, Decimal.value_append_zeros, Decimal.value_digits]
    exact ⟨rfl, rfl⟩
  · rw [if_neg hp, Int.toNat_of_nonpos (show p ≤ 0 by omega), Nat.pow_zero, Nat.mul_one]
    generalize (-p).toNat = k
    by_cases hlong : k < (Decimal.digits d).length
    · obtain ⟨hplaces, hspelled⟩ := pointed
        (fun c hc => ne_point_of_mem_digits
          (List.mem_of_mem_take (i := (Decimal.digits d).length - k) hc))
        (fun c hc => ne_point_of_mem_digits
          (List.mem_of_mem_drop (i := (Decimal.digits d).length - k) hc))
      rw [if_pos hlong, hplaces, hspelled, List.take_append_drop, List.length_drop,
        Decimal.value_digits]
      exact ⟨by omega, rfl⟩
    · have hzeros : Decimal.value (List.replicate 1 '0' ++
          (List.replicate (k - (Decimal.digits d).length) '0' ++ Decimal.digits d)) = d := by
        rw [Decimal.value_zeros_append, Decimal.value_zeros_append, Decimal.value_digits]
      obtain ⟨hplaces, hspelled⟩ := pointed (fun c hc => ne_point_of_mem_zeros (k := 1) hc)
        (fun c hc => (List.mem_append.mp hc).elim
          (ne_point_of_mem_zeros (k := k - (Decimal.digits d).length)) ne_point_of_mem_digits)
      rw [hzeros] at hspelled
      rw [List.length_append, List.length_replicate] at hplaces
      rw [if_neg hlong]
      exact ⟨hplaces.trans (by omega), hspelled⟩

theorem magnitudeText_of_zero (h : x.magnitude = 0) : x.magnitudeText = ['0'] := if_pos h

theorem magnitudeText_of_ne_zero (h : x.magnitude ≠ 0) :
    x.magnitudeText = positional x.shortest.1 x.shortest.2 := by
  rw [magnitudeText, if_neg h]

/-- The number that is written rounds to the float. -/
theorem holds_spelled (h : x.magnitude ≠ 0) :
    0 < spelled x.magnitudeText ∧
      x.roundingInterval.Holds (spelled x.magnitudeText * (4 * unit)) (10 ^ places x.magnitudeText) := by
  obtain ⟨hpos, hholds⟩ := gridPoint?_holds (coarsest_shortest h).point
  obtain ⟨hplaces, hspelled⟩ := positional_spells x.shortest.1 x.shortest.2
  rw [magnitudeText_of_ne_zero h, hplaces, hspelled, Nat.mul_assoc]
  exact ⟨Nat.mul_pos hpos (Nat.pow_pos (by decide)), hholds⟩

theorem spelled_of_zero (h : x.magnitude = 0) : spelled x.magnitudeText = 0 := by
  rw [magnitudeText_of_zero h]
  rfl

theorem magnitudeBits_of_magnitudeText (h : x.magnitudeText = y.magnitudeText) :
    x.magnitudeBits = y.magnitudeBits := by
  by_cases hx : x.magnitude = 0
  · by_cases hy : y.magnitude = 0
    · exact magnitudeBits_of_magnitude (hx.trans hy.symm)
    · have hpos := (holds_spelled hy).1
      rw [← h, spelled_of_zero hx] at hpos
      cases hpos
  · by_cases hy : y.magnitude = 0
    · have hpos := (holds_spelled hx).1
      rw [h, spelled_of_zero hy] at hpos
      cases hpos
    · have hholds := (holds_spelled hx).2
      rw [h] at hholds
      exact magnitudeBits_of_holds (Nat.pow_pos (by decide)) hholds (holds_spelled hy).2

def body (x : Double) : List Char := if x.isFinite then x.magnitudeText else "inf".toList

theorem text_eq (h : x.isNaN = false) :
    x.text = String.ofList (if x.isNegative then '-' :: x.body else x.body) := by
  rw [text, if_neg (by rw [h]; exact Bool.false_ne_true)]
  rfl

theorem body_of_infinite (h : x.isFinite = false) : x.body = ['i', 'n', 'f'] := by
  rw [body, if_neg (by rw [h]; exact Bool.false_ne_true)]
  rfl

theorem exists_digit_cons {cs : List Char} (hne : cs ≠ []) (h : ∀ c ∈ cs, c.isDigit = true)
    (rest : List Char) : ∃ c tail, cs ++ rest = c :: tail ∧ c.isDigit = true := by
  cases cs with
  | nil => exact (hne rfl).elim
  | cons c cs => exact ⟨c, cs ++ rest, rfl, h c List.mem_cons_self⟩

theorem positional_cons (d : Nat) (p : Int) :
    ∃ c tail, positional d p = c :: tail ∧ c.isDigit = true := by
  have hdigits : ∀ c ∈ Decimal.digits d, c.isDigit = true := fun c hc =>
    Decimal.isDigit_of_mem_digits hc
  simp only [positional]
  split
  · exact exists_digit_cons (Decimal.digits_ne_nil d) hdigits _
  · split
    · rename_i hlong
      apply exists_digit_cons
      · rw [ne_eq, List.take_eq_nil_iff]
        rintro (hzero | hnil)
        · omega
        · exact Decimal.digits_ne_nil d hnil
      · exact fun c hc => hdigits c (List.mem_of_mem_take hc)
    · exact ⟨'0', _, rfl, rfl⟩

theorem body_of_finite (h : x.isFinite = true) :
    ∃ c tail, x.body = c :: tail ∧ c.isDigit = true := by
  rw [body, if_pos h]
  by_cases hzero : x.magnitude = 0
  · exact ⟨'0', [], magnitudeText_of_zero hzero, rfl⟩
  · rw [magnitudeText_of_ne_zero hzero]
    exact positional_cons _ _

theorem isFinite_of_body (h : x.body = y.body) : x.isFinite = y.isFinite := by
  cases hx : x.isFinite with
  | true =>
    obtain ⟨c, tail, hbody, hdigit⟩ := body_of_finite hx
    cases hy : y.isFinite with
    | true => rfl
    | false =>
      rw [h, body_of_infinite hy] at hbody
      cases hbody
      cases hdigit
  | false =>
    cases hy : y.isFinite with
    | false => rfl
    | true =>
      obtain ⟨c, tail, hbody, hdigit⟩ := body_of_finite hy
      rw [← h, body_of_infinite hx] at hbody
      cases hbody
      cases hdigit

theorem magnitudeBits_of_infinite (hnan : x.isNaN = false) (h : x.isFinite = false) :
    x.magnitudeBits = 2047 * 2 ^ 52 := by
  simp only [isNaN, isFinite, decide_eq_false_iff_not, exponentField_eq, fraction_eq] at hnan h
  omega

theorem magnitudeBits_of_body (hx : x.isNaN = false) (hy : y.isNaN = false) (h : x.body = y.body) :
    x.magnitudeBits = y.magnitudeBits := by
  have hfinite := isFinite_of_body h
  cases hf : x.isFinite with
  | false =>
    rw [magnitudeBits_of_infinite hx hf, magnitudeBits_of_infinite hy (hfinite.symm.trans hf)]
  | true =>
    rw [body, body, if_pos hf, if_pos (hfinite.symm.trans hf)] at h
    exact magnitudeBits_of_magnitudeText h

theorem body_ne_minus (x : Double) (rest : List Char) : x.body ≠ '-' :: rest := by
  intro h
  cases hf : x.isFinite with
  | true =>
    obtain ⟨c, tail, hbody, hdigit⟩ := body_of_finite hf
    rw [h] at hbody
    cases hbody
    cases hdigit
  | false =>
    rw [body_of_infinite hf] at h
    cases h

/-- A sign in front of what does not begin with one. -/
theorem signed_injective {negative other : Bool} {as bs : List Char} (ha : ∀ rest, as ≠ '-' :: rest)
    (hb : ∀ rest, bs ≠ '-' :: rest)
    (h : (if negative then '-' :: as else as) = if other then '-' :: bs else bs) :
    negative = other ∧ as = bs := by
  cases negative with
  | true =>
    cases other with
    | true => exact ⟨rfl, List.cons_inj_right '-' |>.mp h⟩
    | false => exact (hb as h.symm).elim
  | false =>
    cases other with
    | true => exact (ha bs h).elim
    | false => exact ⟨rfl, h⟩

/-- Different floats have different texts. -/
theorem text_injective (hx : x.isNaN = false) (hy : y.isNaN = false) (h : x.text = y.text) :
    x = y := by
  rw [text_eq hx, text_eq hy, String.ofList_inj] at h
  obtain ⟨hsign, hbody⟩ := signed_injective (body_ne_minus x) (body_ne_minus y) h
  exact eq_of_magnitudeBits hsign (magnitudeBits_of_body hx hy hbody)

def IsNumeral (c : Char) : Prop := c.isDigit = true ∨ c ∈ ['-', '.', 'i', 'n', 'f']

theorem not_isNumeral_letter {c : Char} (h : c = 'Z' ∨ c = 'e') : ¬ IsNumeral c := by
  rintro (hdigit | hsign)
  · rcases h with rfl | rfl
    · cases hdigit
    · cases hdigit
  · rcases h with rfl | rfl
    · simp at hsign
    · simp at hsign

theorem isNumeral_positional {c : Char} (h : c ∈ positional d p) : IsNumeral c := by
  have hdigits : ∀ c ∈ Decimal.digits d, IsNumeral c := fun _ hc =>
    .inl (Decimal.isDigit_of_mem_digits hc)
  have hzeros : ∀ k, ∀ c ∈ List.replicate k '0', IsNumeral c := fun _ _ hc => by
    rw [List.eq_of_mem_replicate hc]
    exact .inl rfl
  rw [positional] at h
  dsimp only at h
  split at h
  · exact (List.mem_append.mp h).elim (hdigits c) (hzeros _ c)
  · split at h
    · rcases List.mem_append.mp h with htake | hpoint
      · exact hdigits c (List.mem_of_mem_take htake)
      · rcases List.mem_cons.mp hpoint with rfl | hdrop
        · exact .inr (by decide)
        · exact hdigits c (List.mem_of_mem_drop hdrop)
    · rcases List.mem_cons.mp h with rfl | h
      · exact .inl rfl
      · rcases List.mem_cons.mp h with rfl | h
        · exact .inr (by decide)
        · exact (List.mem_append.mp h).elim (hzeros _ c) (hdigits c)

theorem isNumeral_body {c : Char} (h : c ∈ x.body) : IsNumeral c := by
  cases hfinite : x.isFinite with
  | false =>
    rw [body_of_infinite hfinite] at h
    exact .inr (List.mem_cons_of_mem _ (List.mem_cons_of_mem _ h))
  | true =>
    rw [body, if_pos hfinite] at h
    by_cases hzero : x.magnitude = 0
    · rw [magnitudeText_of_zero hzero] at h
      rw [List.mem_singleton.mp h]
      exact .inl rfl
    · rw [magnitudeText_of_ne_zero hzero] at h
      exact isNumeral_positional h

theorem isNumeral_signed {negative : Bool} {cs : List Char} {c : Char} (hcs : ∀ c ∈ cs, IsNumeral c)
    (h : c ∈ (String.ofList (if negative then '-' :: cs else cs)).toList) : IsNumeral c := by
  rw [String.toList_ofList] at h
  cases negative with
  | true =>
    rcases List.mem_cons.mp h with rfl | h
    · exact .inr List.mem_cons_self
    · exact hcs c h
  | false => exact hcs c h

theorem isNumeral_text {c : Char} (hnan : x.isNaN = false) (h : c ∈ x.text.toList) : IsNumeral c := by
  rw [text_eq hnan] at h
  exact isNumeral_signed (fun _ => isNumeral_body) h

end StoreQuery.Double
