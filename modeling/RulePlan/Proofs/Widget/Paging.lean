/-
  RulePlan.Proofs.Widget.Paging — the pages of a widget.

  A page is a window of rows: so many are passed over, then so many are shown. Both
  counts are 64-bit numbers, and a product of page number and page size that is too
  large stops at the largest of them. Where a total bounds the rows this is not to be
  seen: a window that shows rows ends within the total, so what it passes over is such
  a number (`Page.window_of_total`), and a window is as good as the rows that it shows.

  These rows are given by the same formula over all natural numbers, and there a page
  begins where the page before it ends: by induction on their number, the first n pages
  show the first n times as many rows as a page has, as far as there are rows
  (`rows_of_pages`).

  Proved, for all parameters of a widget (`Search.pages_show_each_row_once`): its pages
  show its rows one after the other, each row once, and then nothing more; without a
  pager every page shows all rows.
-/

import Mathlib.Data.List.Basic
import RulePlan.Proofs.Widget.BaseFilter

namespace RulePlan

/-! ## Counts -/

namespace Count

theorem toNat_clamp (n : Nat) : (clamp n).toNat = min n (UInt64.size - 1) := by
  unfold clamp
  split
  · next h =>
    rw [UInt64.toNat_ofNat_of_lt' h]
    omega
  · next h =>
    rw [UInt64.toNat_ofNat_of_lt' (by decide)]
    omega

theorem toNat_times (a b : UInt64) : (times a b).toNat = min (a.toNat * b.toNat) (UInt64.size - 1) := toNat_clamp _

theorem toNat_minus (a b : UInt64) : (minus a b).toNat = a.toNat - b.toNat := by
  have h := a.toNat_lt_size
  rw [minus, toNat_clamp]
  omega

theorem toNat_min (a b : UInt64) : (min a b).toNat = min a.toNat b.toNat := by
  show (if a ≤ b then a else b).toNat = min a.toNat b.toNat
  rw [apply_ite UInt64.toNat, Nat.min_def]
  rfl

theorem toNat_max (a b : UInt64) : (max a b).toNat = max a.toNat b.toNat := by
  show (if a ≤ b then b else a).toNat = max a.toNat b.toNat
  rw [apply_ite UInt64.toNat, Nat.max_def]
  rfl

end Count

/-! ## Windows -/

/-- The rows that a window shows, counted from 0. -/
def Window.rows (w : Window) : List Nat := List.range' w.offset.toNat w.limit.toNat

namespace Page

/-- The rows on the pages before this one. -/
def before (p : Page) : Nat := (p.number.toNat - 1) * p.size.toNat

theorem toNat_offset (p : Page) : p.window.offset.toNat = min p.before (UInt64.size - 1) := by
  have h : p.window.offset = Count.times (Count.minus p.number 1) p.size := by
    unfold window
    split <;> rfl
  rw [h, Count.toNat_times, Count.toNat_minus]
  rfl

variable {p : Page} {total : UInt64}

/-- The bounds of the numbers change neither how many rows a page of a bounded listing shows nor, if
    there are any, which of them. -/
theorem window_of_total (ht : p.total? = some total) :
    p.window.limit.toNat = min p.size.toNat (total.toNat - p.before) ∧
      (0 < p.window.limit.toNat → p.window.offset.toNat = p.before) := by
  have hoffset := p.toNat_offset
  have hlt := total.toNat_lt_size
  have hlimit : p.window.limit = min p.size (Count.minus total p.window.offset) := by
    unfold window
    rw [ht]
  rw [hlimit, Count.toNat_min, Count.toNat_minus, hoffset]
  constructor <;> omega

theorem limit_of_no_total (ht : p.total? = none) : p.window.limit = p.size := by
  unfold window
  rw [ht]

theorem rows_of_total (ht : p.total? = some total) :
    p.window.rows = List.range' p.before (min p.size.toNat (total.toNat - p.before)) := by
  obtain ⟨hlimit, hoffset⟩ := window_of_total ht
  unfold Window.rows
  by_cases h : 0 < p.window.limit.toNat
  · rw [hoffset h, hlimit]
  · have hzero : p.window.limit.toNat = 0 := by omega
    rw [← hlimit, hzero, List.range'_zero, List.range'_zero]

end Page

/-- The first n pages show the rows of a listing from the first one on, without a gap. -/
theorem rows_of_pages (size total n : Nat) :
    ((List.range n).flatMap fun i => List.range' (i * size) (min size (total - i * size))) =
      List.range (min total (n * size)) := by
  induction n with
  | zero => simp
  | succ n ih =>
    rw [List.range_succ, List.flatMap_append, ih, List.flatMap_singleton, Nat.succ_mul]
    by_cases h : total ≤ n * size
    · -- nothing is left for this page
      have hleft : min size (total - n * size) = 0 := by omega
      have hsame : min total (n * size + size) = min total (n * size) := by omega
      rw [hleft, hsame, List.range'_zero, List.append_nil]
    · have hfull : min total (n * size) = n * size := by omega
      have hnext : min total (n * size + size) = n * size + min size (total - n * size) := by omega
      have hjoin := @List.range'_append_1 0 (n * size) (min size (total - n * size))
      rw [Nat.zero_add] at hjoin
      rw [hfull, hnext, List.range_eq_range', List.range_eq_range', hjoin]

/-! ## Searches -/

namespace Parameters

theorem pos_of_positive? {v : Json} {n : UInt64} (h : positive? v = some n) : 0 < n.toNat := by
  obtain ⟨i, -, hi⟩ := Option.bind_eq_some_iff.mp h
  split at hi
  · next hpos =>
    cases hi
    have hne : i.toUInt64 ≠ 0 := by
      intro he
      have hzero : i = 0 := congrArg UInt64.toInt64 he
      rw [hzero] at hpos
      exact absurd hpos (by decide)
    exact Nat.pos_of_ne_zero fun h => hne (UInt64.toNat_inj.mp h)
  · cases hi

theorem perPage_pos (p : Parameters) : 0 < p.perPage.toNat := by
  unfold perPage
  cases h : positive? p.itemsPerPage with
  | none => decide
  | some n => exact pos_of_positive? h

end Parameters

namespace Search

/-- The numbers of the first n pages. -/
def firstPages (n : Nat) : List UInt64 := (List.range n).map fun i => UInt64.ofNat (i + 1)

/-- The windows that are asked for by page number show the rows below `count` in their order, each of
    them once and at most `perPage` on a page. -/
structure ShowsEachRowOnce (window : UInt64 → Window) (count perPage : Nat) : Prop where
  page_zero : window 0 = window 1
  limit_le : ∀ k, (window k).limit.toNat ≤ perPage
  end_le : ∀ k, 0 < (window k).limit.toNat → (window k).offset.toNat + (window k).limit.toNat ≤ count
  /-- A page that shows something begins where the page before it ends. -/
  offset_next : ∀ k, 1 ≤ k.toNat → k.toNat + 1 < UInt64.size → 0 < (window (k + 1)).limit.toNat →
    (window (k + 1)).offset.toNat = (window k).offset.toNat + (window k).limit.toNat
  rows_first : ∀ n < UInt64.size, (firstPages n).flatMap (fun k => (window k).rows) = List.range (min count (n * perPage))
  limit_eq_zero_iff : ∀ k, (window k).limit.toNat = 0 ↔ count ≤ (k.toNat - 1) * perPage
  /-- The pages up to some last one show all rows, and those after it are empty. -/
  exists_last : ∃ last < UInt64.size, (firstPages last).flatMap (fun k => (window k).rows) = List.range count ∧
    ∀ k, last < k.toNat → (window k).limit.toNat = 0

variable {p : Parameters}

theorem pageOf_of_pager (hpager : p.hasPager) (k : UInt64) : pageOf p k = ⟨p.perPage, max k 1, some p.count⟩ :=
  if_pos hpager

theorem pageOf_of_no_pager (hpager : ¬ p.hasPager) (k : UInt64) : pageOf p k = ⟨p.count, 1, none⟩ := if_neg hpager

theorem before_pageOf (hpager : p.hasPager) (k : UInt64) :
    (pageOf p k).before = (k.toNat - 1) * p.perPage.toNat := by
  have hfirst : max k.toNat (1 : UInt64).toNat - 1 = k.toNat - 1 := by
    show max k.toNat 1 - 1 = k.toNat - 1
    omega
  rw [pageOf_of_pager hpager, Page.before, Count.toNat_max, hfirst]

/-- What the page shows, by the formula over all natural numbers. -/
theorem window_pageOf (hpager : p.hasPager) (k : UInt64) :
    (pageOf p k).window.limit.toNat = min p.perPage.toNat (p.count.toNat - (k.toNat - 1) * p.perPage.toNat) ∧
      (0 < (pageOf p k).window.limit.toNat →
        (pageOf p k).window.offset.toNat = (k.toNat - 1) * p.perPage.toNat) := by
  rw [← before_pageOf hpager, pageOf_of_pager hpager]
  exact Page.window_of_total rfl

theorem rows_firstPages (hpager : p.hasPager) {n : Nat} (hn : n < UInt64.size) :
    (firstPages n).flatMap (fun k => (pageOf p k).window.rows) =
      List.range (min p.count.toNat (n * p.perPage.toNat)) := by
  rw [firstPages, List.flatMap_map, ← rows_of_pages]
  refine List.flatMap_congr fun i hi => ?_
  have hk : (UInt64.ofNat (i + 1)).toNat - 1 = i := by
    rw [UInt64.toNat_ofNat_of_lt' (by have := List.mem_range.mp hi; omega)]
    omega
  have hrows := Page.rows_of_total (congrArg Page.total? (pageOf_of_pager hpager (UInt64.ofNat (i + 1))))
  rw [hrows, before_pageOf hpager, hk, pageOf_of_pager hpager]

theorem showsEachRowOnce (hpager : p.hasPager) :
    ShowsEachRowOnce (fun k => (pageOf p k).window) p.count.toNat p.perPage.toNat := by
  have hpos := p.perPage_pos
  have hcount := p.count.toNat_lt_size
  refine ⟨?_, fun k => ?_, fun k hk => ?_, fun k hk hnext hshown => ?_, fun n hn => rows_firstPages hpager hn,
    fun k => ?_, ?_⟩
  · rw [pageOf_of_pager hpager, pageOf_of_pager hpager]
    rfl
  · obtain ⟨hlimit, -⟩ := window_pageOf hpager k
    omega
  · obtain ⟨hlimit, hoffset⟩ := window_pageOf hpager k
    have := hoffset hk
    omega
  · obtain ⟨hlimit, hoffset⟩ := window_pageOf hpager k
    obtain ⟨hlimit', hoffset'⟩ := window_pageOf hpager (k + 1)
    have hsum : (k + 1).toNat = k.toNat + 1 := by
      rw [UInt64.toNat_add]
      exact Nat.mod_eq_of_lt hnext
    have hbefore : (k + 1).toNat - 1 = (k.toNat - 1) + 1 := by omega
    rw [hbefore, Nat.succ_mul] at hlimit' hoffset'
    have := hoffset' hshown
    omega
  · obtain ⟨hlimit, -⟩ := window_pageOf hpager k
    omega
  · -- a page has room for at least one row, so there are no more pages than rows
    have hfit : p.count.toNat ≤ p.count.toNat * p.perPage.toNat := Nat.le_mul_of_pos_right _ hpos
    refine ⟨p.count.toNat, hcount, ?_, fun k hk => ?_⟩
    · rw [rows_firstPages hpager hcount, Nat.min_eq_left hfit]
    · obtain ⟨hlimit, -⟩ := window_pageOf hpager k
      have hfar : k.toNat - 1 ≤ (k.toNat - 1) * p.perPage.toNat := Nat.le_mul_of_pos_right _ hpos
      omega

/-- The windows of a widget's pages. With a pager they show its rows one page after the other, each
    row once, and page 0 is the first page; without one every page shows all rows. The bounds of the
    64-bit numbers are not to be seen: the window of a page within a total is that of the same
    formula over all natural numbers, save for where a window without rows would lie. Without a total
    a page is always full, and what it passes over stops at the largest number. -/
theorem pages_show_each_row_once (lookup : Lookup) (limit : Nat) (defaultSet : Option Int64) (p : Parameters) :
    (∀ requested, (ofParameters lookup limit defaultSet p requested).value.map window =
        (p.attributeSet?.or defaultSet).map fun _ => (pageOf p requested).window) ∧
      (p.hasPager → ShowsEachRowOnce (fun k => (pageOf p k).window) p.count.toNat p.perPage.toNat) ∧
      (¬ p.hasPager → ∀ k, (pageOf p k).window = ⟨0, p.count⟩) ∧
      ∀ size number : UInt64,
        (∀ total : UInt64, let w := Page.window ⟨size, number, some total⟩
          w.limit.toNat = min size.toNat (total.toNat - (number.toNat - 1) * size.toNat) ∧
            (0 < w.limit.toNat → w.offset.toNat = (number.toNat - 1) * size.toNat)) ∧
          (Page.window ⟨size, number, none⟩).limit = size ∧
          (Page.window ⟨size, number, none⟩).offset.toNat =
            min ((number.toNat - 1) * size.toNat) (UInt64.size - 1) := by
  refine ⟨fun requested => ?_, showsEachRowOnce, fun hpager k => ?_, fun size number => ⟨fun total => ?_, ?_, ?_⟩⟩
  · rw [ofParameters_value, Option.map_map]
    rfl
  · have hzero : Count.times (Count.minus 1 1) p.count = 0 := by
      apply UInt64.toNat_inj.mp
      rw [Count.toNat_times, Count.toNat_minus, Nat.sub_self, Nat.zero_mul]
      rfl
    rw [pageOf_of_no_pager hpager]
    show Window.mk (Count.times (Count.minus 1 1) p.count) p.count = ⟨0, p.count⟩
    rw [hzero]
  · exact Page.window_of_total rfl
  · exact Page.limit_of_no_total rfl
  · exact Page.toNat_offset _

/-- Ten rows, four on a page: the third page has two of them, and the last page that can be asked for
    lies so far behind them that what it passes over is no 64-bit number. -/
theorem ten_rows_are_shown_on_three_pages :
    let p : Parameters := { showPager := .str "1", itemsCount := .str " 10 ", itemsPerPage := .int 4 }
    let last : UInt64 := 18446744073709551615
    p.hasPager ∧ (firstPages 3).flatMap (fun k => (pageOf p k).window.rows) = List.range 10 ∧
      (pageOf p 3).window = ⟨8, 2⟩ ∧ (pageOf p last).window.limit.toNat = 0 := by
  intro p last
  have hpager : p.hasPager := by decide +kernel
  have hcount : p.count.toNat = 10 := by decide +kernel
  have hsize : p.perPage.toNat = 4 := by decide +kernel
  obtain ⟨-, hshows, -⟩ := pages_show_each_row_once (fun _ => .ok {}) 32 none p
  have hrows := (hshows hpager).rows_first 3 (by decide)
  have hlast := ((hshows hpager).limit_eq_zero_iff last).mpr (by rw [hcount, hsize]; decide)
  rw [hcount, hsize] at hrows
  exact ⟨hpager, hrows, by decide +kernel, hlast⟩

end Search

end RulePlan
