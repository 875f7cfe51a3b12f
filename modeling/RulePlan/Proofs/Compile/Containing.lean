/-
  RulePlan.Proofs.Compile.Containing — what `contains` finds, end to end.

  The value of a `contains` condition is made into a pattern by one function and the
  pattern is read by another. The first puts a backslash before `%` and `_` and a run at
  either end; the second takes a backslash for a sign that the next character stands for
  itself. On a value without backslashes the two agree: the pattern is read as a run,
  the lower-cased characters of the value, and a run (`tokens_containsPattern`), so it
  matches a text just when these characters occur in it one after the other.

  A backslash of the value is not put after another one, so the reader takes it for such
  a sign. It is lost, or the wildcard after it is one again, or, at the end of the value,
  the closing run becomes a percent sign. In each case there is a text without the value
  in it that the pattern matches (`misread`).

  Proved (`compile_contains_iff`), for every attribute of plain text, value and aggregator:
  the conditions `contains` and `does not contain` tell the texts that have the value in
  them from those that have not, on every record, just when the value has no backslash.
-/

import RulePlan.Proofs.Compile.Level
import RulePlan.Proofs.Plan.LikePattern

namespace RulePlan

/-- The characters of the second text, lower-cased one by one, stand together somewhere among
    those of the first. -/
def Text.Contains (t v : String) : Prop := lowerEach v.toList <:+: lowerEach t.toList

namespace LikePattern

variable {s text : List Char} {ts : List Token}

/-! ## A run of characters between runs -/

theorem matches_lone_run : Matches [.run] text :=
  matches_run_iff.mpr ⟨[], List.nil_suffix, .nil⟩

theorem matches_between_runs : Matches (.run :: (s.map .literal ++ [.run])) text ↔ s <:+: text := by
  rw [matches_run_iff, List.infix_iff_prefix_suffix]
  refine exists_congr fun rest => ?_
  rw [matches_literals_append, and_comm]
  refine and_congr_left fun _ => ?_
  constructor
  · rintro ⟨after, rfl, -⟩
    exact List.prefix_append s after
  · rintro ⟨after, rfl⟩
    exact ⟨after, rfl, matches_lone_run⟩

/-! ## The pattern of a value -/

theorem escapeWildcards_cons (c : Char) (s : List Char) :
    escapeWildcards (c :: s) = (if c = '%' ∨ c = '_' then ['\\', c] else [c]) ++ escapeWildcards s := by
  simp [escapeWildcards]

/-- Whatever is not a backslash is read as itself, since the wildcards have one before them. -/
theorem tokens_escapeWildcards_cons {c : Char} (hc : c ≠ '\\') (pattern : List Char) :
    tokens (escapeWildcards (c :: s) ++ pattern) = literals c ++ tokens (escapeWildcards s ++ pattern) := by
  rw [escapeWildcards_cons]
  split
  · rfl
  · next hwild => exact tokens_plain ⟨fun e => hwild (.inl e), fun e => hwild (.inr e), hc⟩

/-- Without a backslash, a value is read as its own lower-cased characters. -/
theorem tokens_escapeWildcards_append (h : '\\' ∉ s) (pattern : List Char) :
    tokens (escapeWildcards s ++ pattern) = (Text.lowerEach s).map .literal ++ tokens pattern := by
  induction s with
  | nil => rfl
  | cons c s ih =>
    obtain ⟨hc, hs⟩ := not_or.mp (mt List.mem_cons.mpr h)
    rw [tokens_escapeWildcards_cons (Ne.symm hc), ih hs, Text.lowerEach_cons, List.map_append, List.append_assoc,
      literals]

/-- The characters of the pattern that a value is made into. -/
theorem asText_containsPattern (v : String) :
    (containsPattern (.text v)).asText.toList = '%' :: (escapeWildcards v.toList ++ ['%']) := by
  simp [containsPattern, Scalar.asText]

theorem tokens_containsPattern {v : String} (h : '\\' ∉ v.toList) :
    tokens (containsPattern (.text v)).asText.toList =
      .run :: ((Text.lowerEach v.toList).map .literal ++ [.run]) := by
  rw [asText_containsPattern, tokens, tokens_escapeWildcards_append h]
  rfl

/-! ## Values with a backslash -/

/-- What a value is taken for by the reader of its pattern: a text that matches the pattern. -/
def misread : List Char → List Char
  | [] => []
  | ['\\'] => ['%']
  | '\\' :: '%' :: r => '\\' :: misread r
  | '\\' :: '_' :: r => '\\' :: 'a' :: misread r
  | '\\' :: c :: r => c :: misread r
  | c :: r => c :: misread r

/-- In the last case of `misread` the first character is no backslash. -/
theorem ne_backslash {c : Char} (hlone : c = '\\' → s = [] → False)
    (hescaped : ∀ d r, c = '\\' → s = d :: r → False) : c ≠ '\\' := by
  intro hc
  cases s with
  | nil => exact hlone hc rfl
  | cons d r => exact hescaped d r hc rfl

theorem matches_misread (s : List Char) :
    Matches (tokens (escapeWildcards s ++ ['%'])) (Text.lowerEach (misread s)) := by
  fun_induction misread s with
  | case1 => exact matches_lone_run
  | case2 => exact matches_literals_cons .nil
  | case3 r ih =>
    -- the backslash of the value stands for the one that was put before the wildcard
    have hread : tokens (escapeWildcards ('\\' :: '%' :: r) ++ ['%']) =
        literals '\\' ++ .run :: tokens (escapeWildcards r ++ ['%']) := rfl
    rw [hread]
    exact matches_literals_cons (.run [] ih)
  | case4 r ih =>
    have hread : tokens (escapeWildcards ('\\' :: '_' :: r) ++ ['%']) =
        literals '\\' ++ .one :: tokens (escapeWildcards r ++ ['%']) := rfl
    rw [hread]
    exact matches_literals_cons (.one 'a' ih)
  | case5 c r hrun hone ih =>
    have hwild : ¬ (c = '%' ∨ c = '_') := not_or.mpr ⟨hrun, hone⟩
    have hread : tokens (escapeWildcards ('\\' :: c :: r) ++ ['%']) =
        literals c ++ tokens (escapeWildcards r ++ ['%']) := by
      rw [escapeWildcards_cons, escapeWildcards_cons, if_neg (by decide), if_neg hwild]
      rfl
    rw [hread]
    exact matches_literals_cons ih
  | case6 c r hlone hrun hone hescaped ih =>
    rw [tokens_escapeWildcards_cons (ne_backslash hlone hescaped)]
    exact matches_literals_cons ih

theorem length_lowerEach_cons (c : Char) (s : List Char) :
    (Text.lowerEach (c :: s)).length = (Text.lowerChar c).length + (Text.lowerEach s).length := by
  rw [Text.lowerEach_cons, List.length_append]

theorem length_misread_le (s : List Char) : (Text.lowerEach (misread s)).length ≤ (Text.lowerEach s).length := by
  have hsigns : (Text.lowerChar '\\').length = 1 ∧ (Text.lowerChar '%').length = 1 ∧
      (Text.lowerChar '_').length = 1 ∧ (Text.lowerChar 'a').length = 1 := by decide
  fun_induction misread s <;> simp only [length_lowerEach_cons, hsigns] at * <;> omega

/-- Of a value with a backslash some character is lost or replaced. -/
theorem misread_ne (h : '\\' ∈ s) : Text.lowerEach (misread s) ≠ Text.lowerEach s := by
  have hsign : (Text.lowerChar '\\').length = 1 := by decide
  fun_induction misread s with
  | case1 => cases h
  | case2 => decide
  | case3 r =>
    have hlength := length_misread_le r
    have hrun : (Text.lowerChar '%').length = 1 := by decide
    refine ne_of_apply_ne List.length (Nat.ne_of_lt ?_)
    simp only [length_lowerEach_cons]
    omega
  | case4 r =>
    have hsecond : Text.lowerEach ['\\', 'a'] ≠ Text.lowerEach ['\\', '_'] := by decide
    exact fun e => hsecond (congrArg (List.take 2) e)
  | case5 c r =>
    have hlength := length_misread_le r
    refine ne_of_apply_ne List.length (Nat.ne_of_lt ?_)
    simp only [length_lowerEach_cons]
    omega
  | case6 c r hlone hrun hone hescaped ih =>
    have hr : '\\' ∈ r := (List.mem_cons.mp h).resolve_left (ne_backslash hlone hescaped).symm
    rw [Text.lowerEach_cons, Text.lowerEach_cons]
    exact fun e => ih hr (List.append_cancel_left e)

/-- The text is too short to have the value in it. -/
theorem not_infix_misread (h : '\\' ∈ s) : ¬ Text.lowerEach s <:+: Text.lowerEach (misread s) :=
  fun hin => misread_ne h (hin.eq_of_length_le (length_misread_le s)).symm

/-- The pattern of a value finds the texts that contain it, just when the value has no backslash. -/
theorem isLike_containsPattern_iff (v : String) :
    (∀ t : String, (Scalar.text t).isLike (containsPattern (.text v)) ↔ Text.Contains t v) ↔ '\\' ∉ v.toList := by
  constructor
  · intro hall hmem
    have hmatch : (Scalar.text (String.ofList (misread v.toList))).isLike (containsPattern (.text v)) := by
      rw [Scalar.isLike, isMatch_eq_true_iff, asText_containsPattern, tokens, Scalar.asText, String.toList_ofList]
      exact .run [] (matches_misread v.toList)
    have hcontains := (hall _).mp hmatch
    rw [Text.Contains, String.toList_ofList] at hcontains
    exact not_infix_misread hmem hcontains
  · intro h t
    rw [Scalar.isLike, isMatch_eq_true_iff, tokens_containsPattern h, matches_between_runs, Scalar.asText,
      Text.Contains]

end LikePattern

/-! ## Plans -/

/-- The field names an attribute that is there and stores plain values. -/
structure StoresPlain (lookup : Lookup) (f : String) (a : Attribute) : Prop where
  named : Text.trim f ≠ "" ∧ Text.trim f ≠ hasImageField ∧ Text.trim f ≠ entityIdField
  known : lookup (Text.trim f) = .ok a
  present : a.present
  plain : a.storage = .plain

theorem normalize_pattern {k : Comparison} (hk : k.takesPattern) {x : Scalar} (hx : x.isBlank = false) :
    normalize (.single x) k .plain = some (.single (containsPattern x)) := by
  have hlist : k.takesList = false := by
    revert hk
    cases k <;> decide
  rw [normalize_single hlist, hx]
  simp [Operand.asPattern, hk, Storage.reading, Storage.isCoded]

namespace StoresPlain

variable {lookup : Lookup} {limit : Nat} {f : String} {a : Attribute} {v t : String} {record : Record}

/-- One comparison with the pattern of the value. -/
theorem granted_eq (h : StoresPlain lookup f a) (hv : Text.allBlank v = false) {o : Operator}
    (ho : o.comparison.takesPattern) :
    (⟨f, o.symbol, .single (.text v)⟩ : Condition).granted lookup =
      [Predicate.single (Text.trim f) o.comparison (containsPattern (.text v))] := by
  have hcode : (⟨f, o.symbol, .single (.text v)⟩ : Condition).code? = some (Text.trim f) :=
    Condition.code?_eq_some_iff.mpr ⟨rfl, h.named⟩
  have ha : usable? (lookup (Text.trim f)) = some a := by rw [h.known, usable?, if_pos h.present]
  have hoperand := normalize_pattern ho (x := .text v) hv
  have hstorage : a.storage ≠ .codeSet := by
    rw [h.plain]
    decide
  rw [Condition.granted_of_attribute hcode ha, comparisonOf_symbol, h.plain, hoperand]
  simp [Predicate.single]

/-- The plan of a single condition asks for its one predicate, below either aggregator. -/
theorem plan_matches_iff (h : StoresPlain lookup f a) (hlimit : 1 ≤ limit) (hv : Text.allBlank v = false) {o : Operator}
    (ho : o.comparison.takesPattern) (aggregator : Aggregator) :
    (compile lookup limit ⟨aggregator, [.condition ⟨f, o.symbol, .single (.text v)⟩]⟩).plan.matches record ↔
      (Predicate.single (Text.trim f) o.comparison (containsPattern (.text v))).matches record := by
  rw [lone_refuses_iff hlimit (Condition.refuses_of_granted (h.granted_eq hv ho) (.inr ⟨_, rfl⟩)) aggregator,
    List.forall_mem_singleton]

theorem contains_iff (h : StoresPlain lookup f a) (hlimit : 1 ≤ limit) (hv : Text.allBlank v = false)
    (hr : record (Text.trim f) = some (.text t)) (aggregator : Aggregator) :
    (compile lookup limit ⟨aggregator, [.condition ⟨f, Operator.contains.symbol, .single (.text v)⟩]⟩).plan.matches
        record ↔ (Scalar.text t).isLike (containsPattern (.text v)) := by
  rw [h.plan_matches_iff hlimit hv rfl]
  simp [Predicate.matches, Predicate.holdsOf, Predicate.single, Operator.comparison, hr, Operand.first?]

theorem notContains_iff (h : StoresPlain lookup f a) (hlimit : 1 ≤ limit) (hv : Text.allBlank v = false)
    (hr : record (Text.trim f) = some (.text t)) (aggregator : Aggregator) :
    (compile lookup limit ⟨aggregator, [.condition ⟨f, Operator.notContains.symbol, .single (.text v)⟩]⟩).plan.matches
        record ↔ ¬ (Scalar.text t).isLike (containsPattern (.text v)) := by
  rw [h.plan_matches_iff hlimit hv rfl]
  simp [Predicate.matches, Predicate.holdsOf, Predicate.single, Operator.comparison, hr, Operand.first?]

end StoresPlain

/-- On an attribute of plain text, the plans of `contains` and `does not contain` tell the texts
    that have the value in them from those that have not, just when the value has no backslash. -/
theorem compile_contains_iff {lookup : Lookup} {limit : Nat} {f : String} {a : Attribute} {v : String}
    (h : StoresPlain lookup f a) (hlimit : 1 ≤ limit) (hv : Text.allBlank v = false) :
    let plan (aggregator : Aggregator) (o : Operator) :=
      (compile lookup limit ⟨aggregator, [.condition ⟨f, o.symbol, .single (.text v)⟩]⟩).plan
    (∀ (record : Record) (t : String) (aggregator : Aggregator), record (Text.trim f) = some (.text t) →
      ((plan aggregator .contains).matches record ↔ Text.Contains t v) ∧
        ((plan aggregator .notContains).matches record ↔ ¬ Text.Contains t v)) ↔ '\\' ∉ v.toList := by
  intro plan
  rw [← LikePattern.isLike_containsPattern_iff]
  constructor
  · intro hall t
    let record : Record := fun _ => some (.text t)
    have hr : record (Text.trim f) = some (.text t) := rfl
    rw [← h.contains_iff hlimit hv hr .all]
    exact (hall record t .all hr).1
  · intro hall record t aggregator hr
    have hcontains := h.contains_iff hlimit hv hr aggregator
    have hnot := h.notContains_iff hlimit hv hr aggregator
    exact ⟨hcontains.trans (hall t), hnot.trans (not_congr (hall t))⟩

/-- Signs that are wildcards in a pattern count as any others. -/
theorem a_value_with_wildcards_is_found_in_the_texts_that_contain_it :
    let lookup : Lookup := fun _ => .ok {}
    let plan (o : Operator) :=
      (compile lookup 1 ⟨.any, [.condition ⟨" name", o.symbol, .single (.text "50%_Off")⟩]⟩).plan
    let record (t : String) : Record := fun field => if field = "name" then some (.text t) else none
    StoresPlain lookup " name" {} ∧ 1 ≤ 1 ∧ Text.allBlank "50%_Off" = false ∧
      (plan .contains).matches (record "now 50%_OFF!") ∧ Text.Contains "now 50%_OFF!" "50%_Off" ∧
      (plan .notContains).matches (record "now 50% off!") ∧ ¬ Text.Contains "now 50% off!" "50%_Off" := by
  intro lookup plan record
  have hplain : StoresPlain lookup " name" {} := ⟨by decide, rfl, rfl, rfl⟩
  have hv : Text.allBlank "50%_Off" = false := by decide
  have hlimit : 1 ≤ 1 := by decide
  have hfinds := (compile_contains_iff hplain hlimit hv).mpr (by decide)
  have hin : (plan .contains).matches (record "now 50%_OFF!") := by decide
  have hout : (plan .notContains).matches (record "now 50% off!") := by decide
  exact ⟨hplain, hlimit, hv, hin, (hfinds (record "now 50%_OFF!") _ .any (by decide)).1.mp hin, hout,
    (hfinds (record "now 50% off!") _ .any (by decide)).2.mp hout⟩

/-- A backslash at the end of a value is not found, and a percent sign is found in its place. -/
theorem a_backslash_at_the_end_of_a_value_is_taken_for_a_percent_sign :
    let lookup : Lookup := fun _ => .ok {}
    let plan (o : Operator) := (compile lookup 32 ⟨.all, [.condition ⟨"name", o.symbol, .single (.text "a\\")⟩]⟩).plan
    let record (t : String) : Record := fun field => if field = "name" then some (.text t) else none
    Text.allBlank "a\\" = false ∧
      Text.Contains "a\\b" "a\\" ∧ ¬ (plan .contains).matches (record "a\\b") ∧
      (plan .notContains).matches (record "a\\b") ∧
      ¬ Text.Contains "a%" "a\\" ∧ (plan .contains).matches (record "a%") ∧
      ¬ (plan .notContains).matches (record "a%") := by
  unfold Text.Contains
  decide

end RulePlan
