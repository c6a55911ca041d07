import SignalFoundry.Lattice.Tracking.Canonical

/-!
# Reading canonical JSON back

What `canonical_json` admits is a rule for every part of a value and two sums over
it, none of which depends on the order of members. The preflight of a written
document depends on its nesting and on its structural tokens only. A value within
both is read back as it was written.
-/

namespace Tracking

open Fallible Json

variable {F : Type} [PyFloat F] [FloatText F]

/-! ## What is admitted -/

/-- The rules of `_freeze_json` for the parts of a value. -/
def frozen : Rules F where
  scalar
    | .int n => -2 ^ 63 ≤ n ∧ n ≤ 2 ^ 63 - 1
    | .float x => PyFloat.isFinite x = true
    | .str s => (PyText.encodeUtf8 s).length ≤ maxJsonStringBytes
    | _ => True
  key k := k ≠ "" ∧ (PyText.encodeUtf8 k).length ≤ 256
  depth := maxJsonDepth

omit [PyFloat F] [FloatText F] in
def nodeWeights : Weights F where
  scalar _ := 1
  brackets := 1
  key _ := 0
  comma := 0

omit [PyFloat F] in
def byteWeights : Weights F where
  scalar := scalarSize
  brackets := 2
  key k := encodedTextSize k + 1
  comma := 1

namespace JsonBudget

structure Within (budget : JsonBudget) : Prop where
  nodes : budget.nodes ≤ maxJsonNodes
  encodedBytes : budget.encodedBytes ≤ maxCanonicalJsonBytes

def spend (budget : JsonBudget) (nodes encodedBytes : ℕ) : JsonBudget :=
  ⟨budget.nodes + nodes, budget.encodedBytes + encodedBytes⟩

theorem spend_spend (budget : JsonBudget) (n n' b b' : ℕ) :
    (budget.spend n b).spend n' b' = budget.spend (n + n') (b + b') := by
  simp [spend, Nat.add_assoc]

theorem Within.of_spend {budget : JsonBudget} {n b : ℕ} (h : (budget.spend n b).Within) :
    budget.Within :=
  ⟨(Nat.le_add_right _ _).trans h.nodes, (Nat.le_add_right _ _).trans h.encodedBytes⟩

end JsonBudget

/-- A pass over a value that succeeds exactly when a condition holds and the budget
bears what it spends. -/
def Spends (condition : Prop) (nodes encodedBytes : ℕ)
    (pass : JsonBudget → Except RegistryError JsonBudget) : Prop :=
  ∀ budget budget' : JsonBudget, budget.Within →
    (pass budget = .ok budget' ↔
      condition ∧ budget' = budget.spend nodes encodedBytes ∧ budget'.Within)

namespace Spends

variable {P Q : Prop} {n n' b b' : ℕ} {pass pass' : JsonBudget → Except RegistryError JsonBudget}

theorem nothing : Spends True 0 0 .ok := by
  intro budget budget' h
  rw [Except.ok.injEq]
  constructor
  · rintro rfl
    exact ⟨trivial, rfl, h⟩
  · rintro ⟨-, rfl, -⟩
    rfl

theorem addNode : Spends True 1 0 JsonBudget.addNode := by
  intro budget budget' h
  simp only [JsonBudget.addNode, bind_eq_ok_iff, refuseIf_eq_ok_iff, Except.ok.injEq, not_lt]
  constructor
  · rintro ⟨-, hle, rfl⟩
    exact ⟨trivial, rfl, hle, h.encodedBytes⟩
  · rintro ⟨-, rfl, hwithin⟩
    exact ⟨(), hwithin.nodes, rfl⟩

theorem addEncodedBytes (count : ℕ) : Spends True 0 count (·.addEncodedBytes count) := by
  intro budget budget' h
  simp only [JsonBudget.addEncodedBytes, bind_eq_ok_iff, refuseIf_eq_ok_iff, Except.ok.injEq,
    not_lt]
  constructor
  · rintro ⟨-, hle, rfl⟩
    exact ⟨trivial, rfl, h.nodes, hle⟩
  · rintro ⟨-, rfl, hwithin⟩
    exact ⟨(), hwithin.encodedBytes, rfl⟩

theorem refuseIf {refused : Prop} [Decidable refused] (error : RegistryError)
    (h : Spends P n b pass) :
    Spends (¬ refused ∧ P) n b
      (fun budget => Fallible.refuseIf refused error >>= fun _ => pass budget) := by
  intro budget budget' hwithin
  simp only [bind_eq_ok_iff, refuseIf_eq_ok_iff, h budget budget' hwithin, and_assoc,
    exists_const]

theorem bind (h : Spends P n b pass) (h' : Spends Q n' b' pass') :
    Spends (P ∧ Q) (n + n') (b + b') fun budget => pass budget >>= pass' := by
  intro budget budget' hwithin
  rw [bind_eq_ok_iff]
  constructor
  · rintro ⟨between, hfirst, hsecond⟩
    obtain ⟨hP, rfl, hbetween⟩ := (h budget between hwithin).mp hfirst
    obtain ⟨hQ, rfl, hend⟩ := (h' _ budget' hbetween).mp hsecond
    rw [JsonBudget.spend_spend] at hend ⊢
    exact ⟨⟨hP, hQ⟩, rfl, hend⟩
  · rintro ⟨⟨hP, hQ⟩, rfl, hend⟩
    rw [← JsonBudget.spend_spend] at hend ⊢
    have hbetween := hend.of_spend
    exact ⟨_, (h budget _ hwithin).mpr ⟨hP, rfl, hbetween⟩,
      (h' _ _ hbetween).mpr ⟨hQ, rfl, hend⟩⟩

theorem congr (h : Spends P n b pass) (hcondition : P ↔ Q) (hnodes : n = n') (hbytes : b = b') :
    Spends Q n' b' pass := by
  subst hnodes hbytes
  rwa [← propext hcondition]

end Spends

/-! ### The passes over a value -/

theorem spends_value {P : Prop} {n b : ℕ} {v : Json F} {depth : ℕ}
    {pass : JsonBudget → Except RegistryError JsonBudget} (hpass : Spends P n b pass)
    (hfreeze : freeze v depth = fun budget => budget.addNode >>= fun budget =>
      Fallible.refuseIf (maxJsonDepth < depth) (RegistryError.validation "JSON exceeds depth 16")
        >>= fun _ => pass budget) :
    Spends (depth ≤ maxJsonDepth ∧ P) (n + 1) b (freeze v depth) := by
  have hdepth : Spends (¬ maxJsonDepth < depth ∧ P) n b fun budget =>
      Fallible.refuseIf (maxJsonDepth < depth) (RegistryError.validation "JSON exceeds depth 16")
        >>= fun _ => pass budget := hpass.refuseIf _
  rw [hfreeze]
  exact (Spends.addNode.bind hdepth).congr (by rw [true_and, not_lt]) (Nat.add_comm 1 n)
    (Nat.zero_add b)

theorem spends_scalar {P : Prop} {v : Json F} {depth : ℕ}
    {pass : JsonBudget → Except RegistryError JsonBudget} (harr : ∀ items, v ≠ .arr items)
    (hobj : ∀ members, v ≠ .obj members) (hrule : P ↔ frozen.scalar v)
    (hpass : Spends P 0 (scalarSize v) pass)
    (hfreeze : freeze v depth = fun budget => budget.addNode >>= fun budget =>
      Fallible.refuseIf (maxJsonDepth < depth) (RegistryError.validation "JSON exceeds depth 16")
        >>= fun _ => pass budget) :
    Spends (Meets frozen depth v) (weight nodeWeights v) (weight byteWeights v)
      (freeze v depth) := by
  refine (spends_value hpass hfreeze).congr ?_ ?_ ?_
  · rw [meets_of_scalar frozen harr hobj, hrule]
    rfl
  · rw [weight_of_scalar nodeWeights harr hobj]
    rfl
  · rw [weight_of_scalar byteWeights harr hobj]
    rfl

omit [PyFloat F] in
theorem scalarSize_str (s : String) : scalarSize (.str s : Json F) = encodedTextSize s := by
  rw [scalarSize, writeWith, encodedTextSize]

mutual

/-- What `_freeze_json` admits and what it spends. -/
theorem spends_freeze : ∀ (v : Json F) (depth : ℕ),
    Spends (Meets frozen depth v) (weight nodeWeights v) (weight byteWeights v) (freeze v depth)
  | .null, depth => by
      refine spends_scalar nofun nofun .rfl (Spends.addEncodedBytes _) ?_
      funext budget
      rw [freeze]
  | .bool x, depth => by
      refine spends_scalar nofun nofun .rfl (Spends.addEncodedBytes _) ?_
      funext budget
      rw [freeze]
  | .int k, depth => by
      have hrule : ¬ ¬ (-2 ^ 63 ≤ k ∧ k ≤ 2 ^ 63 - 1) ∧ True ↔
          frozen.scalar (.int k : Json F) := by
        rw [not_not, and_true]
        rfl
      refine spends_scalar nofun nofun hrule
        ((Spends.addEncodedBytes _).refuseIf (.validation "JSON integer is outside signed 64-bit range")) ?_
      funext budget
      rw [freeze]
  | .float x, depth => by
      have hrule : ¬ PyFloat.isFinite x = false ∧ True ↔ frozen.scalar (.float x) := by
        rw [and_true, Bool.not_eq_false]
        rfl
      refine spends_scalar nofun nofun hrule
        ((Spends.addEncodedBytes _).refuseIf (.validation "JSON numbers must be finite")) ?_
      funext budget
      rw [freeze]
  | .str s, depth => by
      have hrule : ¬ maxJsonStringBytes < (PyText.encodeUtf8 s).length ∧ True ↔
          frozen.scalar (.str s : Json F) := by
        rw [and_true, not_lt]
        rfl
      refine spends_scalar nofun nofun hrule
        ((Spends.addEncodedBytes _).refuseIf
          (.validation "JSON strings may not exceed 65536 bytes")) ?_
      funext budget
      rw [freeze, scalarSize_str]
  | .arr items, depth => by
      refine (spends_value ((Spends.addEncodedBytes 2).bind (spends_freezeItems items 0 depth))
        ?_).congr ?_ ?_ ?_
      · funext budget
        rw [freeze]
      · rw [Meets, true_and]
        rfl
      · rw [weight]
        simp [nodeWeights, Nat.add_comm]
      · rw [weight]
        simp [byteWeights, Nat.add_assoc]
  | .obj members, depth => by
      refine (spends_value ((Spends.addEncodedBytes 2).bind
        (spends_freezeMembers members 0 depth)) ?_).congr ?_ ?_ ?_
      · funext budget
        rw [freeze]
      · rw [Meets, true_and]
        rfl
      · rw [weight]
        simp [nodeWeights, Nat.add_comm]
      · rw [weight]
        simp [byteWeights, Nat.add_assoc]

theorem spends_freezeItems : ∀ (items : List (Json F)) (index depth : ℕ),
    Spends (ItemsMeet frozen depth items) (itemsWeight nodeWeights items)
      (itemsWeight byteWeights items + (items.length - if 0 < index then 0 else 1))
      (freezeItems items index depth)
  | [], index, depth => by
      have hfreeze : freezeItems ([] : List (Json F)) index depth = .ok := by
        funext budget
        rw [freezeItems]
      rw [hfreeze]
      refine Spends.nothing.congr (by rw [ItemsMeet]) rfl ?_
      rw [itemsWeight, List.length_nil, Nat.zero_sub]
  | v :: rest, index, depth => by
      have hfreeze : freezeItems (v :: rest) index depth = fun budget =>
          budget.addEncodedBytes (if 0 < index then 1 else 0) >>= fun budget =>
            freeze v (depth + 1) budget >>= freezeItems rest (index + 1) depth := by
        funext budget
        rw [freezeItems]
      rw [hfreeze]
      refine ((Spends.addEncodedBytes _).bind ((spends_freeze v (depth + 1)).bind
        (spends_freezeItems rest (index + 1) depth))).congr ?_ ?_ ?_
      · rw [ItemsMeet, true_and]
      · rw [itemsWeight, Nat.zero_add]
      · rw [itemsWeight, List.length_cons, if_pos (Nat.succ_pos index)]
        split <;> omega

theorem spends_freezeMembers : ∀ (members : List (String × Json F)) (index depth : ℕ),
    Spends (MembersMeet frozen depth members) (membersWeight nodeWeights members)
      (membersWeight byteWeights members + (members.length - if 0 < index then 0 else 1))
      (freezeMembers members index depth)
  | [], index, depth => by
      have hfreeze : freezeMembers ([] : List (String × Json F)) index depth = .ok := by
        funext budget
        rw [freezeMembers]
      rw [hfreeze]
      refine Spends.nothing.congr (by rw [MembersMeet]) rfl ?_
      rw [membersWeight, List.length_nil, Nat.zero_sub]
  | (k, v) :: rest, index, depth => by
      have hfreeze : freezeMembers ((k, v) :: rest) index depth = fun budget =>
          Fallible.refuseIf (k = "" ∨ 256 < (PyText.encodeUtf8 k).length) keyError >>= fun _ =>
            budget.addEncodedBytes (encodedTextSize k + 1 + if 0 < index then 1 else 0) >>=
              fun budget =>
                freeze v (depth + 1) budget >>= freezeMembers rest (index + 1) depth := by
        funext budget
        rw [freezeMembers]
      rw [hfreeze]
      refine (((Spends.addEncodedBytes _).bind ((spends_freeze v (depth + 1)).bind
        (spends_freezeMembers rest (index + 1) depth))).refuseIf keyError).congr ?_ ?_ ?_
      · rw [MembersMeet, true_and, not_or, not_lt, ← and_assoc]
        rfl
      · rw [membersWeight, Nat.zero_add, nodeWeights, Nat.zero_add]
      · rw [membersWeight, List.length_cons, if_pos (Nat.succ_pos index), byteWeights]
        dsimp only
        split <;> omega

end

/-- The values that `canonical_json` writes. -/
structure Admitted (v : Json F) : Prop where
  meets : Meets frozen 0 v
  nodes : weight nodeWeights v ≤ maxJsonNodes
  bytes : weight byteWeights v ≤ maxCanonicalJsonBytes

theorem canonicalJson_eq_ok_iff {v : Json F} {text : String} :
    canonicalJson v = .ok text ↔ Admitted v ∧ text = v.dumpsUnicode := by
  have hstart : JsonBudget.Within {} := ⟨Nat.zero_le _, Nat.zero_le _⟩
  simp only [canonicalJson, bind_eq_ok_iff, Except.ok.injEq, spends_freeze v 0 {} _ hstart]
  constructor
  · rintro ⟨budget, ⟨hmeets, rfl, hwithin⟩, rfl⟩
    have hnodes := hwithin.nodes
    have hbytes := hwithin.encodedBytes
    simp only [JsonBudget.spend, Nat.zero_add] at hnodes hbytes
    exact ⟨⟨hmeets, hnodes, hbytes⟩, rfl⟩
  · rintro ⟨h, rfl⟩
    refine ⟨_, ⟨h.meets, rfl, ?_, ?_⟩, rfl⟩
    · simpa [JsonBudget.spend] using h.nodes
    · simpa [JsonBudget.spend] using h.bytes

theorem admitted_sorted {v : Json F} : Admitted v.sorted ↔ Admitted v := by
  constructor
  · intro h
    refine ⟨(meets_sorted frozen 0 v).mp h.meets, ?_, ?_⟩
    · rw [← weight_sorted]
      exact h.nodes
    · rw [← weight_sorted]
      exact h.bytes
  · intro h
    refine ⟨(meets_sorted frozen 0 v).mpr h.meets, ?_, ?_⟩
    · rw [weight_sorted]
      exact h.nodes
    · rw [weight_sorted]
      exact h.bytes

omit [PyFloat F] in
theorem dumpsUnicode_sorted (v : Json F) : v.sorted.dumpsUnicode = v.dumpsUnicode := by
  rw [dumpsUnicode, dumpsUnicode, sorted_sorted]

/-! ## Scanning -/

/-- Where the loop of the preflight ends; `none` when it raises. -/
def scanned (s : JsonScan) (cs : List Char) : Option JsonScan :=
  (cs.foldlM JsonScan.step s).toOption

@[simp] theorem scanned_nil (s : JsonScan) : scanned s [] = some s := rfl

theorem scanned_cons (s : JsonScan) (c : Char) (cs : List Char) :
    scanned s (c :: cs) = (s.step c).toOption.bind (scanned · cs) := by
  rw [scanned, List.foldlM_cons]
  cases s.step c <;> rfl

theorem scanned_append (s : JsonScan) (cs rest : List Char) :
    scanned s (cs ++ rest) = (scanned s cs).bind (scanned · rest) := by
  induction cs generalizing s with
  | nil => rfl
  | cons c cs ih =>
      rw [List.cons_append, scanned_cons, scanned_cons]
      cases (s.step c).toOption with
      | none => rfl
      | some next => exact ih next

/-- Outside texts the loop passes a text that leaves `opened` brackets fewer, unless
its nesting or its tokens exceed the bounds. -/
def Scans (opened : ℕ) (cs : List Char) (nesting tokens : ℕ) : Prop :=
  ∀ d t : ℕ, d + opened ≤ maxJsonDepth → t ≤ maxJsonStructuralTokens →
    scanned ⟨(d + opened : ℕ), t, false, false⟩ cs =
      if d + opened + nesting ≤ maxJsonDepth ∧ t + tokens ≤ maxJsonStructuralTokens then
        some ⟨d, t + tokens, false, false⟩ else none

namespace Scans

variable {opened nesting nesting' tokens tokens' : ℕ} {cs rest : List Char}

theorem append (h : Scans 0 cs nesting tokens) (h' : Scans opened rest nesting' tokens') :
    Scans opened (cs ++ rest) (max nesting nesting') (tokens + tokens') := by
  intro d t hd ht
  have hfirst := h (d + opened) t (by simpa using hd) ht
  simp only [Nat.add_zero] at hfirst
  rw [scanned_append, hfirst]
  by_cases hfits : d + opened + nesting ≤ maxJsonDepth ∧ t + tokens ≤ maxJsonStructuralTokens
  · rw [if_pos hfits, Option.bind_some, h' d (t + tokens) hd hfits.2]
    have hiff : d + opened + nesting' ≤ maxJsonDepth ∧
        t + tokens + tokens' ≤ maxJsonStructuralTokens ↔
          d + opened + max nesting nesting' ≤ maxJsonDepth ∧
            t + (tokens + tokens') ≤ maxJsonStructuralTokens := by omega
    rw [if_congr hiff rfl rfl, Nat.add_assoc t]
  · rw [if_neg hfits, Option.bind_none, if_neg (by omega)]

theorem opening {c : Char} (hc : c = '[' ∨ c = '\x7b') (h : Scans 1 cs nesting tokens) :
    Scans 0 (c :: cs) (nesting + 1) (tokens + 1) := by
  have hquote : c ≠ '\x22' := by rcases hc with rfl | rfl <;> decide
  intro d t hd ht
  rw [scanned_cons, JsonScan.step, if_neg Bool.false_ne_true, JsonScan.outside, if_neg hquote,
    if_pos hc]
  by_cases hdepth : d + 1 ≤ maxJsonDepth
  · by_cases htokens : t + 1 ≤ maxJsonStructuralTokens
    · have hcast : ¬ (maxJsonDepth : ℤ) < ((d + 0 : ℕ) : ℤ) + 1 := by omega
      simp only [refuseIf_of_not hcast, ok_bind, refuseIf_of_not (not_lt.mpr htokens)]
      have hnext : ((d + 0 : ℕ) : ℤ) + 1 = ((d + 1 : ℕ) : ℤ) := by omega
      rw [hnext]
      refine (h d (t + 1) hdepth htokens).trans ?_
      have hiff : d + 1 + nesting ≤ maxJsonDepth ∧ t + 1 + tokens ≤ maxJsonStructuralTokens ↔
          d + 0 + (nesting + 1) ≤ maxJsonDepth ∧
            t + (tokens + 1) ≤ maxJsonStructuralTokens := by omega
      rw [if_congr hiff rfl rfl, Nat.add_assoc t, Nat.add_comm 1 tokens]
    · have hcast : ¬ (maxJsonDepth : ℤ) < ((d + 0 : ℕ) : ℤ) + 1 := by omega
      simp only [refuseIf_of_not hcast, ok_bind, refuseIf_of (not_le.mp htokens), error_bind]
      rw [if_neg (by omega)]
      rfl
  · have hcast : (maxJsonDepth : ℤ) < ((d + 0 : ℕ) : ℤ) + 1 := by omega
    simp only [refuseIf_of hcast, error_bind]
    rw [if_neg (by omega)]
    rfl

theorem closing {c : Char} (hc : c = ']' ∨ c = '\x7d') : Scans 1 [c] 0 0 := by
  have hquote : c ≠ '\x22' := by rcases hc with rfl | rfl <;> decide
  have hopen : ¬ (c = '[' ∨ c = '\x7b') := by rcases hc with rfl | rfl <;> decide
  intro d t hd ht
  have hcast : ¬ (d : ℤ) < 0 := by omega
  have hnext : ((d + 1 : ℕ) : ℤ) - 1 = d := by omega
  rw [scanned_cons, JsonScan.step, if_neg Bool.false_ne_true, JsonScan.outside, if_neg hquote,
    if_neg hopen, if_pos hc]
  simp only [hnext, refuseIf_of_not hcast, ok_bind, refuseIf_of_not (not_lt.mpr ht)]
  rw [if_pos ⟨hd, ht⟩]
  rfl

theorem mark {c : Char} (hc : c = ',' ∨ c = ':') : Scans 0 [c] 0 1 := by
  have hquote : c ≠ '\x22' := by rcases hc with rfl | rfl <;> decide
  have hopen : ¬ (c = '[' ∨ c = '\x7b') := by rcases hc with rfl | rfl <;> decide
  have hclose : ¬ (c = ']' ∨ c = '\x7d') := by rcases hc with rfl | rfl <;> decide
  intro d t hd ht
  rw [scanned_cons, JsonScan.step, if_neg Bool.false_ne_true, JsonScan.outside, if_neg hquote,
    if_neg hopen, if_neg hclose, if_pos hc]
  by_cases htokens : t + 1 ≤ maxJsonStructuralTokens
  · simp only [ok_bind, refuseIf_of_not (not_lt.mpr htokens)]
    rw [if_pos ⟨hd, htokens⟩]
    rfl
  · simp only [ok_bind, refuseIf_of (not_le.mp htokens), error_bind]
    rw [if_neg (by omega)]
    rfl

theorem congr (h : Scans opened cs nesting tokens) (hnesting : nesting = nesting')
    (htokens : tokens = tokens') : Scans opened cs nesting' tokens' := by
  rwa [← hnesting, ← htokens]

end Scans

/-! ### Texts -/

section Texts

variable {d : ℤ} {t : ℕ}

theorem scanned_inside {c : Char} (hbackslash : c ≠ '\\') (hquote : c ≠ '\x22') :
    scanned ⟨d, t, true, false⟩ [c] = some ⟨d, t, true, false⟩ := by
  rw [scanned_cons]
  simp [JsonScan.step, hbackslash, hquote, Except.toOption]

theorem scanned_escaped (c : Char) :
    scanned ⟨d, t, true, false⟩ ['\\', c] = some ⟨d, t, true, false⟩ := by
  simp [scanned_cons, JsonScan.step, Except.toOption]

theorem scanned_inside_of_forall {cs : List Char} (h : ∀ c ∈ cs, c ≠ '\\' ∧ c ≠ '\x22') :
    scanned ⟨d, t, true, false⟩ cs = some ⟨d, t, true, false⟩ := by
  induction cs with
  | nil => rfl
  | cons c cs ih =>
      obtain ⟨hc, hrest⟩ := List.forall_mem_cons.mp h
      rw [← List.singleton_append, scanned_append, scanned_inside hc.1 hc.2]
      exact ih hrest

theorem scanned_escapeControl (c : Char) :
    scanned ⟨d, t, true, false⟩ (escapeControl c) = some ⟨d, t, true, false⟩ := by
  unfold escapeControl
  split_ifs with hbackslash hquote hplain
  case pos => exact scanned_escaped _
  case pos => exact scanned_escaped _
  case pos => exact scanned_inside hbackslash hquote
  case neg =>
    have hhex : ∀ n, PyText.hexDigit n ≠ '\\' ∧ PyText.hexDigit n ≠ '\x22' := by
      intro n
      have hall : ∀ e < 16, Nat.digitChar e ≠ '\\' ∧ Nat.digitChar e ≠ '\x22' := by decide
      exact hall (n % 16) (Nat.mod_lt _ (by decide))
    have hsplit : '\\' :: 'u' :: hex4 c.toNat = ['\\', 'u'] ++ hex4 c.toNat := rfl
    rw [hsplit, scanned_append, scanned_escaped, Option.bind_some]
    refine scanned_inside_of_forall fun e he => ?_
    simp only [hex4, List.mem_cons, List.not_mem_nil, or_false] at he
    rcases he with rfl | rfl | rfl | rfl <;> exact hhex _
  all_goals exact scanned_escaped _

theorem scanned_flatMap (cs : List Char) :
    scanned ⟨d, t, true, false⟩ (cs.flatMap escapeControl) = some ⟨d, t, true, false⟩ := by
  induction cs with
  | nil => rfl
  | cons c cs ih =>
      rw [List.flatMap_cons, scanned_append, scanned_escapeControl, Option.bind_some, ih]

end Texts

/-- A text is one token. -/
theorem scans_writeString (text : String) : Scans 0 (writeStringWith escapeControl text) 0 1 := by
  intro d t hd ht
  rw [writeStringWith, List.cons_append, scanned_cons, JsonScan.step, if_neg Bool.false_ne_true,
    JsonScan.outside, if_pos rfl]
  by_cases htokens : t + 1 ≤ maxJsonStructuralTokens
  · simp only [ok_bind, refuseIf_of_not (not_lt.mpr htokens)]
    rw [if_pos ⟨hd, htokens⟩]
    refine (scanned_append _ _ _).trans ?_
    rw [scanned_flatMap, Option.bind_some]
    rfl
  · simp only [ok_bind, refuseIf_of (not_le.mp htokens), error_bind]
    rw [if_neg (by omega)]
    rfl

/-! ### Numbers and constants -/

/-- A character outside texts that the loop passes over. -/
def isPassed (c : Char) : Bool :=
  ! (c = '\x22' || c = '[' || c = '\x7b' || c = ']' || c = '\x7d' || c = ',' || c = ':')

theorem scans_of_isPassed {cs : List Char} (h : ∀ c ∈ cs, isPassed c = true) :
    Scans 0 cs 0 0 := by
  induction cs with
  | nil =>
      intro d t hd ht
      rw [if_pos ⟨hd, ht⟩]
      rfl
  | cons c cs ih =>
      obtain ⟨hc, hrest⟩ := List.forall_mem_cons.mp h
      intro d t hd ht
      simp only [isPassed, Bool.not_eq_true', Bool.or_eq_false_iff, decide_eq_false_iff_not] at hc
      obtain ⟨⟨⟨⟨⟨⟨hquote, hopen⟩, hbrace⟩, hclose⟩, hcurly⟩, hcomma⟩, hcolon⟩ := hc
      rw [scanned_cons, JsonScan.step, if_neg Bool.false_ne_true, JsonScan.outside, if_neg hquote,
        if_neg (not_or.mpr ⟨hopen, hbrace⟩), if_neg (not_or.mpr ⟨hclose, hcurly⟩),
        if_neg (not_or.mpr ⟨hcomma, hcolon⟩)]
      simp only [ok_bind, refuseIf_of_not (not_lt.mpr ht)]
      exact ih hrest d t hd ht

theorem isPassed_of_isDigit {c : Char} (h : PyText.isDigitAscii c = true) : isPassed c = true := by
  by_contra hpassed
  simp only [isPassed, Bool.not_eq_true', Bool.not_eq_false, Bool.or_eq_true,
    decide_eq_true_eq] at hpassed
  rcases hpassed with (((((rfl | rfl) | rfl) | rfl) | rfl) | rfl) | rfl <;>
    exact absurd h (by decide)

theorem isPassed_of_mem_scanDigits {cs : List Char} {c : Char} (h : c ∈ (scanDigits cs).1) :
    isPassed c = true := by
  induction cs with
  | nil => cases h
  | cons e cs ih =>
      rw [scanDigits] at h
      split_ifs at h with he
      · rcases List.mem_cons.mp h with rfl | hrest
        · exact isPassed_of_isDigit he
        · exact ih hrest
      · cases h

theorem isPassed_of_mem_scanWhole {cs whole rest : List Char} {c : Char}
    (h : scanWhole cs = some (whole, rest)) (hc : c ∈ whole) : isPassed c = true := by
  cases cs with
  | nil => cases h
  | cons e cs =>
      rw [scanWhole] at h
      split_ifs at h with hzero hdigit
      · cases h
        rw [List.mem_singleton.mp hc]
        decide
      · cases h
        rcases List.mem_cons.mp hc with rfl | hc
        · exact isPassed_of_isDigit hdigit
        · exact isPassed_of_mem_scanDigits hc

theorem isPassed_of_mem_scanFraction {cs : List Char} {c : Char} (h : c ∈ (scanFraction cs).1) :
    isPassed c = true := by
  unfold scanFraction at h
  split at h
  · split_ifs at h with hdigit
    · rcases List.mem_cons.mp h with rfl | h
      · decide
      · rcases List.mem_cons.mp h with rfl | h
        · exact isPassed_of_isDigit hdigit
        · exact isPassed_of_mem_scanDigits h
    · cases h
  · cases h

theorem isPassed_of_mem_scanExponent {cs : List Char} {c : Char} (h : c ∈ (scanExponent cs).1) :
    isPassed c = true := by
  have hmark : ∀ e : Char, e = 'e' ∨ e = 'E' → isPassed e = true := by
    rintro e (rfl | rfl) <;> decide
  have hsign : ∀ s : Char, s = '-' ∨ s = '+' → isPassed s = true := by
    rintro s (rfl | rfl) <;> decide
  unfold scanExponent at h
  split at h
  · split_ifs at h with he hdigit hs
    · rcases List.mem_cons.mp h with rfl | h
      · exact hmark _ he
      · rcases List.mem_cons.mp h with rfl | h
        · exact isPassed_of_isDigit hdigit
        · exact isPassed_of_mem_scanDigits h
    · split at h
      · split_ifs at h with hdigit'
        · rcases List.mem_cons.mp h with rfl | h
          · exact hmark _ he
          · rcases List.mem_cons.mp h with rfl | h
            · exact hsign _ hs
            · rcases List.mem_cons.mp h with rfl | h
              · exact isPassed_of_isDigit hdigit'
              · exact isPassed_of_mem_scanDigits h
        · cases h
      · cases h
    · cases h
    · cases h
  · cases h

/-- A number is passed over. -/
theorem isPassed_of_scanNumber {cs rest : List Char} {token : NumberToken}
    (h : scanNumber cs = some (token, rest)) {c : Char} (hc : c ∈ token.text) :
    isPassed c = true := by
  unfold scanNumber at h
  split at h
  · cases h
  · next whole tail hwhole =>
      cases h
      rw [NumberToken.text, List.mem_append, List.mem_append, List.mem_append] at hc
      have hsign : ∀ negative : Bool, ∀ c ∈ (if negative then ['-'] else [] : List Char),
          isPassed c = true := fun negative => List.all_eq_true.mp (by cases negative <;> decide)
      rcases hc with (hc | hc) | hc | hc
      · exact hsign _ c hc
      · exact isPassed_of_mem_scanWhole hwhole hc
      · exact isPassed_of_mem_scanFraction hc
      · exact isPassed_of_mem_scanExponent hc

theorem scans_writeInt (n : ℤ) : Scans 0 (writeInt n) 0 0 := by
  have hdigits : ∀ c ∈ Nat.toDigits 10 n.natAbs, isPassed c = true :=
    fun c hc => isPassed_of_isDigit (isDigitAscii_of_mem_toDigits hc)
  refine scans_of_isPassed fun c hc => ?_
  rw [writeInt] at hc
  split at hc
  · rcases List.mem_cons.mp hc with rfl | hc
    · decide
    · exact hdigits c hc
  · exact hdigits c hc

/-! ### Documents -/

/-- The brackets, texts, commas and colons of a document. -/
def tokenWeights : Weights F where
  scalar
    | .str _ => 1
    | _ => 0
  brackets := 1
  key _ := 2
  comma := 1

omit [PyFloat F] in
mutual

/-- The preflight of a written document. -/
theorem scans_writeWith : ∀ {v : Json F}, v.Writable →
    Scans 0 (v.writeWith escapeControl) (nesting v) (weight tokenWeights v)
  | .null, _ => by
      rw [writeWith]
      exact scans_of_isPassed (List.all_eq_true.mp (by decide))
  | .bool b, _ => by
      cases b with
      | true =>
          rw [writeWith]
          exact scans_of_isPassed (List.all_eq_true.mp (by decide))
      | false =>
          rw [writeWith]
          exact scans_of_isPassed (List.all_eq_true.mp (by decide))
  | .int n, _ => by
      rw [writeWith]
      exact scans_writeInt n
  | .float x, h => by
      obtain ⟨⟨token, hscan, -, htext⟩, -⟩ := h
      rw [writeWith, ← htext]
      exact scans_of_isPassed fun c hc => isPassed_of_scanNumber hscan hc
  | .str s, _ => by
      rw [writeWith]
      exact scans_writeString s
  | .arr [], _ => by
      rw [writeWith, nesting, weight]
      exact .opening (.inl rfl) (.closing (.inl rfl))
  | .arr (v :: rest), h => by
      have hitems := (scans_writeWith h.1).append (scans_writeItemsWith h.2)
      rw [writeWith, nesting, weight, itemsNesting, itemsWeight]
      refine (Scans.opening (.inl rfl) hitems).congr rfl ?_
      simp only [tokenWeights, List.length_cons]
      omega
  | .obj [], _ => by
      rw [writeWith, nesting, weight]
      exact .opening (.inr rfl) (.closing (.inr rfl))
  | .obj ((k, v) :: rest), h => by
      have hmembers := (scans_writeString k).append (((Scans.mark (.inr rfl)).append
        ((scans_writeWith h.2.1).append (scans_writeMembersWith h.2.2))))
      rw [writeWith, nesting, weight, membersNesting, membersWeight]
      refine (Scans.opening (.inr rfl) hmembers).congr (by simp) ?_
      simp only [tokenWeights, List.length_cons]
      omega

theorem scans_writeItemsWith : ∀ {items : List (Json F)}, WritableItems items →
    Scans 1 (writeItemsWith escapeControl items) (itemsNesting items)
      (itemsWeight tokenWeights items + items.length)
  | [], _ => by
      rw [writeItemsWith]
      exact .closing (.inl rfl)
  | v :: rest, h => by
      have hrest := (Scans.mark (.inl rfl)).append
        ((scans_writeWith h.1).append (scans_writeItemsWith h.2))
      rw [writeItemsWith, itemsNesting, itemsWeight]
      refine hrest.congr (by simp) ?_
      rw [List.length_cons]
      omega

theorem scans_writeMembersWith : ∀ {members : List (String × Json F)}, WritableMembers members →
    Scans 1 (writeMembersWith escapeControl members) (membersNesting members)
      (membersWeight tokenWeights members + members.length)
  | [], _ => by
      rw [writeMembersWith]
      exact .closing (.inr rfl)
  | (k, v) :: rest, h => by
      have hrest := (Scans.mark (.inl rfl)).append ((scans_writeString k).append
        (((Scans.mark (.inr rfl)).append
          ((scans_writeWith h.1).append (scans_writeMembersWith h.2)))))
      rw [writeMembersWith, membersNesting, membersWeight]
      refine hrest.congr (by simp) ?_
      simp only [tokenWeights, List.length_cons]
      omega

end

/-! ## Reading back -/

omit [PyFloat F] in
theorem preflightJsonText_eq_ok_iff {v : Json F} (h : v.Writable) (maximumBytes : ℕ) :
    preflightJsonText (String.ofList (v.writeWith escapeControl)) maximumBytes = .ok () ↔
      (1 ≤ maximumBytes ∧ maximumBytes ≤ maxCanonicalJsonBytes) ∧
      (1 ≤ scalarSize v ∧ scalarSize v ≤ maximumBytes) ∧
      nesting v ≤ maxJsonDepth ∧ weight tokenWeights v ≤ maxJsonStructuralTokens := by
  have hscan := scans_writeWith h 0 0 (Nat.zero_le _) (Nat.zero_le _)
  simp only [Nat.zero_add, Nat.cast_zero] at hscan
  simp only [preflightJsonText, bind_eq_ok_iff, refuseIf_eq_ok_iff, not_not, String.toList_ofList]
  rw [exists_const, ← scalarSize]
  refine and_congr_right fun _ => ?_
  rw [exists_const]
  refine and_congr_right fun _ => ?_
  constructor
  · rintro ⟨s, hs, -⟩
    by_contra hfits
    rw [if_neg hfits, scanned] at hscan
    have hsome : ((v.writeWith escapeControl).foldlM JsonScan.step {}).toOption = some s := by
      rw [hs]
      rfl
    exact absurd (hsome.symm.trans hscan) (by simp)
  · intro hfits
    rw [if_pos hfits, scanned] at hscan
    cases hfold : (v.writeWith escapeControl).foldlM JsonScan.step
        ⟨0, 0, false, false⟩ with
    | error e =>
        rw [hfold] at hscan
        cases hscan
    | ok s =>
        rw [hfold] at hscan
        obtain rfl := Option.some.inj hscan
        exact ⟨_, rfl, by simp⟩

omit [PyFloat F] [FloatText F] in
theorem keepsPairs_strictHooks : KeepsPairs (strictHooks : Hooks F Unit) :=
  fun _ hnodup => if_pos hnodup

omit [PyFloat F] in
theorem loads_dumpsUnicode {v : Json F} (h : v.Writable) :
    loads strictHooks v.dumpsUnicode = .ok v.sorted :=
  loads_writeWith strictHooks escapes_escapeControl keepsPairs_strictHooks (writable_sorted h)

/-- What is written is read back, with its members in the order of their keys,
exactly when its nesting and its tokens are within the bounds of the preflight. -/
theorem decodeBoundedJson_canonicalJson_iff {v : Json F} (hwritable : v.Writable) {text : String}
    (h : canonicalJson v = .ok text) {maximumBytes : ℕ}
    (hmaximum : 1 ≤ maximumBytes ∧ maximumBytes ≤ maxCanonicalJsonBytes)
    (hsize : 1 ≤ (PyText.encodeUtf8 text).length ∧
      (PyText.encodeUtf8 text).length ≤ maximumBytes) (requireCanonical : Bool) :
    decodeBoundedJson text maximumBytes requireCanonical = .ok v.sorted ↔
      nesting v ≤ maxJsonDepth ∧ weight tokenWeights v ≤ maxJsonStructuralTokens := by
  obtain ⟨hadmitted, rfl⟩ := canonicalJson_eq_ok_iff.mp h
  have hpreflight := preflightJsonText_eq_ok_iff (writable_sorted hwritable) maximumBytes
  rw [nesting_sorted, weight_sorted] at hpreflight
  have hagain : canonicalJson v.sorted = .ok v.dumpsUnicode :=
    canonicalJson_eq_ok_iff.mpr ⟨admitted_sorted.mpr hadmitted, (dumpsUnicode_sorted v).symm⟩
  simp only [decodeBoundedJson, loads_dumpsUnicode hwritable, Except.mapError, ok_bind, hagain]
  constructor
  · intro hread
    obtain ⟨⟨⟩, hok, -⟩ := bind_eq_ok_iff.mp hread
    exact (hpreflight.mp hok).2.2
  · intro hfits
    rw [dumpsUnicode] at hsize ⊢
    rw [hpreflight.mpr ⟨hmaximum, hsize, hfits⟩, ok_bind, refuseIf_of_not (by simp)]
    rfl

end Tracking
