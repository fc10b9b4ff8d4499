/-
**How origins are listed.**

The origins of a configuration are looked at one after another, and the one of the pages last.  An
origin that is not empty is listed in its cleaned form, unless it is listed already.  The list
therefore has no duplicates, it holds what the configured origins are written forms of, and it is in
the order in which these are first written.  An empty origin leaves it as it is, and so does an
origin that is written once more, with whatever slashes at its end.

Main definitions:

* `Calculator.Origin.Yields` — an origin is configured through a written form that is not empty;
* `Calculator.Origin.added` — one origin more is looked at;
* `Calculator.Origin.Lists` — what a list of origins says about the configured ones;
* `Calculator.Origin.Inserted` — one more origin is configured that says nothing new.

Main results:

* `Calculator.Origin.resolve_eq_foldl` — the origins are looked at one after another;
* `Calculator.Origin.Lists.added` — what one more origin preserves;
* `Calculator.Origin.lists_resolve` — **what is listed, and in which order**.
-/

import Calculator.Proofs.Settings.Origin
import Mathlib.Data.List.Induction
import Mathlib.Logic.Relation

set_option relaxedAutoImplicit false
set_option autoImplicit false

namespace Calculator.Origin

/-! ### Written forms -/

/-- An origin is configured by a written form of it that is not empty. -/
def Yields (written origin : String) : Prop := written ≠ "" ∧ IsTrimmed origin written

theorem yields_iff {written origin : String} :
    Yields written origin ↔ written ≠ "" ∧ cleaned written = origin := by
  rw [Yields, cleaned_eq_iff]

instance (written origin : String) : Decidable (Yields written origin) :=
  decidable_of_iff _ yields_iff.symm

theorem mem_resolve_iff {origins : List String} {frontend : Option String} {origin : String} :
    origin ∈ resolve origins frontend ↔
      ∃ written ∈ configured origins frontend, Yields written origin := by
  simp only [mem_resolve, yields_iff]

/-- An origin with more slashes at its end. -/
def slashed (n : Nat) (origin : String) : String :=
  String.ofList (origin.toList ++ List.replicate n '/')

theorem IsTrimmed.slashed {origin written : String} (h : IsTrimmed origin written) (n : Nat) :
    IsTrimmed origin (slashed n written) := by
  obtain ⟨hlast, m, hm⟩ := h
  refine ⟨hlast, m + n, ?_⟩
  rw [Origin.slashed, String.toList_ofList, hm, List.append_assoc, List.replicate_append_replicate]

/-! ### One origin after another -/

/-- What is listed after one more origin has been looked at. -/
def added (listed : List String) (written : String) : List String :=
  if written = "" ∨ cleaned written ∈ listed then listed else listed ++ [cleaned written]

theorem added_of_listed {listed : List String} {written : String}
    (h : written = "" ∨ cleaned written ∈ listed) : added listed written = listed := if_pos h

theorem added_of_new {listed : List String} {written : String} (hne : written ≠ "")
    (hnew : cleaned written ∉ listed) : added listed written = listed ++ [cleaned written] :=
  if_neg (not_or_intro hne hnew)

theorem mem_added {listed : List String} {written origin : String} :
    origin ∈ added listed written ↔ origin ∈ listed ∨ Yields written origin := by
  rw [yields_iff]
  by_cases hempty : written = ""
  · rw [added_of_listed (.inl hempty)]
    simp [hempty]
  · by_cases hmem : cleaned written ∈ listed
    · rw [added_of_listed (.inr hmem)]
      exact ⟨.inl, fun h => h.elim id fun hw => hw.2 ▸ hmem⟩
    · rw [added_of_new hempty hmem, List.mem_append, List.mem_singleton]
      simp [hempty, eq_comm]

/-- Duplicates are left out at the end as well. -/
theorem eraseDups_concat (listed : List String) (origin : String) :
    (listed ++ [origin]).eraseDups =
      if origin ∈ listed then listed.eraseDups else listed.eraseDups ++ [origin] := by
  rw [List.eraseDups_append, List.removeAll]
  by_cases h : origin ∈ listed
  · rw [if_pos h, List.filter_cons_of_neg (by simp [h]), List.filter_nil, List.eraseDups_nil,
      List.append_nil]
  · rw [if_neg h, List.filter_cons_of_pos (by simp [h]), List.filter_nil, List.eraseDups_cons]
    rfl

/-- The origins are looked at one after another. -/
theorem resolve_eq_foldl (origins : List String) (frontend : Option String) :
    resolve origins frontend = (configured origins frontend).foldl added [] := by
  unfold resolve
  induction configured origins frontend using List.reverseRecOn with
  | nil => rfl
  | append_singleton seen written ih =>
      rw [List.foldl_append, List.foldl_cons, List.foldl_nil, ← ih, List.filter_append,
        List.map_append]
      by_cases hempty : written = ""
      · rw [added_of_listed (.inl hempty), List.filter_cons_of_neg (by simp [hempty]),
          List.filter_nil, List.map_nil, List.append_nil]
      · rw [List.filter_cons_of_pos (by simp [hempty]), List.filter_nil, List.map_singleton,
          eraseDups_concat]
        split
        · next hmem => rw [added_of_listed (.inr (List.mem_eraseDups.2 hmem))]
        · next hmem => rw [added_of_new hempty (hmem ∘ List.mem_eraseDups.1)]

/-! ### What is listed -/

/-- The number of origins that are looked at before the first one that configures the origin. -/
def firstIndex (configured : List String) (origin : String) : Nat :=
  configured.findIdx (Yields · origin)

/-- What a list of origins says about the configured ones. -/
structure Lists (configured listed : List String) : Prop where
  nodup : listed.Nodup
  getLast?_ne : ∀ origin ∈ listed, origin.toList.getLast? ≠ some '/'
  mem_iff : ∀ origin, origin ∈ listed ↔ ∃ written ∈ configured, Yields written origin
  ordered : listed.Pairwise fun origin other =>
    firstIndex configured origin < firstIndex configured other

theorem Lists.of_ordered {configured listed : List String}
    (hmem : ∀ origin, origin ∈ listed ↔ ∃ written ∈ configured, Yields written origin)
    (hordered : listed.Pairwise fun origin other =>
      firstIndex configured origin < firstIndex configured other) : Lists configured listed where
  nodup := by
    refine hordered.imp fun {origin other} hlt heq => ?_
    rw [heq] at hlt
    exact Nat.lt_irrefl _ hlt
  getLast?_ne origin h := by
    obtain ⟨written, -, hyields⟩ := (hmem origin).1 h
    exact hyields.2.getLast?_ne
  mem_iff := hmem
  ordered := hordered

theorem lists_nil : Lists [] [] := .of_ordered (by simp) .nil

section

variable {configured listed : List String} {origin written : String}

theorem firstIndex_lt_iff :
    firstIndex configured origin < configured.length ↔
      ∃ written ∈ configured, Yields written origin := by
  simp [firstIndex, List.findIdx_lt_length]

theorem firstIndex_append (configured more : List String) (origin : String) :
    firstIndex (configured ++ more) origin =
      if firstIndex configured origin < configured.length then firstIndex configured origin
      else firstIndex more origin + configured.length :=
  List.findIdx_append

/-- Further origins do not change which one comes first. -/
theorem firstIndex_append_of_exists (h : ∃ written ∈ configured, Yields written origin)
    (more : List String) :
    firstIndex (configured ++ more) origin = firstIndex configured origin := by
  rw [firstIndex_append, if_pos (firstIndex_lt_iff.2 h)]

theorem le_firstIndex_append (h : ¬ ∃ written ∈ configured, Yields written origin)
    (more : List String) : configured.length ≤ firstIndex (configured ++ more) origin := by
  rw [firstIndex_append, if_neg (firstIndex_lt_iff.not.2 h)]
  exact Nat.le_add_left _ _

/-- What one more origin preserves. -/
theorem Lists.added (h : Lists configured listed) (written : String) :
    Lists (configured ++ [written]) (Origin.added listed written) := by
  have hindex : ∀ origin ∈ listed,
      firstIndex (configured ++ [written]) origin = firstIndex configured origin :=
    fun origin hmem => firstIndex_append_of_exists ((h.mem_iff origin).1 hmem) _
  have hordered : listed.Pairwise fun origin other =>
      firstIndex (configured ++ [written]) origin < firstIndex (configured ++ [written]) other := by
    refine h.ordered.imp_of_mem fun {origin other} ho ho' hlt => ?_
    rw [hindex origin ho, hindex other ho']
    exact hlt
  refine .of_ordered (fun origin => ?_) ?_
  · rw [mem_added, h.mem_iff]
    simp [or_and_right, exists_or]
  · by_cases hlisted : written = "" ∨ cleaned written ∈ listed
    · rw [added_of_listed hlisted]
      exact hordered
    · obtain ⟨hne, hnew⟩ := not_or.1 hlisted
      rw [added_of_new hne hnew, List.pairwise_append]
      refine ⟨hordered, List.pairwise_singleton _ _, fun origin ho other ho' => ?_⟩
      obtain rfl : other = cleaned written := List.mem_singleton.1 ho'
      -- a new origin comes first where it is looked at, behind all those that are listed
      calc firstIndex (configured ++ [written]) origin
          = firstIndex configured origin := hindex origin ho
        _ < configured.length := firstIndex_lt_iff.2 ((h.mem_iff origin).1 ho)
        _ ≤ firstIndex (configured ++ [written]) (cleaned written) :=
            le_firstIndex_append (fun hex => hnew ((h.mem_iff _).2 hex)) _

/-- What all further origins preserve. -/
theorem Lists.foldl (h : Lists configured listed) (more : List String) :
    Lists (configured ++ more) (more.foldl Origin.added listed) := by
  induction more generalizing configured listed with
  | nil => rwa [List.append_nil]
  | cons written more ih =>
      rw [List.append_cons]
      exact ih (h.added written)

end

/-! ### Nothing new -/

/-- One more origin is configured somewhere that is empty, or that has been configured before and
has some slashes more at its end. -/
inductive Inserted : List String → List String → Prop where
  | blank (before after : List String) : Inserted (before ++ after) (before ++ "" :: after)
  | again {before : List String} {written : String} (hmem : written ∈ before) (hne : written ≠ "")
      (n : Nat) (after : List String) :
      Inserted (before ++ after) (before ++ slashed n written :: after)

/-- Such an origin leaves the list as it is. -/
theorem Inserted.foldl_eq {short long : List String} (h : Inserted short long) :
    long.foldl added [] = short.foldl added [] := by
  cases h with
  | blank before after =>
      rw [List.foldl_append, List.foldl_append, List.foldl_cons, added_of_listed (.inl rfl)]
  | @again before written hmem hne n after =>
      have hlists := lists_nil.foldl before
      have hlisted : cleaned (slashed n written) ∈ before.foldl added [] := by
        refine (hlists.mem_iff _).2 ⟨written, hmem, hne, ?_⟩
        have hwritten : IsTrimmed (cleaned written) written := cleaned_eq_iff.1 rfl
        rw [cleaned_eq_iff.2 (hwritten.slashed n)]
        exact hwritten
      rw [List.foldl_append, List.foldl_append, List.foldl_cons, added_of_listed (.inr hlisted)]

theorem foldl_eq_of_inserted {short long : List String}
    (h : Relation.ReflTransGen Inserted short long) :
    long.foldl added [] = short.foldl added [] := by
  induction h with
  | refl => rfl
  | tail _ hinserted ih => exact hinserted.foldl_eq.trans ih

/-! ### Resolution -/

/-- **What is listed, and in which order.**  The origins that a configuration allows are those of
which a configured origin, in the list or as the one of the pages, is a written form that is not
empty; each is listed once and without slashes at its end, in the order in which they are first
configured, that of the pages last.  Empty origins and further written forms of origins that are
configured before change nothing. -/
theorem lists_resolve (origins : List String) (frontend : Option String) :
    Lists (configured origins frontend) (resolve origins frontend) ∧
      ∀ (origins' : List String) (frontend' : Option String),
        Relation.ReflTransGen Inserted (configured origins frontend)
            (configured origins' frontend') →
          resolve origins' frontend' = resolve origins frontend := by
  rw [resolve_eq_foldl]
  refine ⟨lists_nil.foldl _, fun origins' frontend' h => ?_⟩
  rw [resolve_eq_foldl]
  exact foldl_eq_of_inserted h

/-- An empty origin in the middle, and the first origin with one slash more as that of the pages. -/
theorem lists_resolve_inserted :
    let short := ["http://a/", "http://b"]
    let long := ["http://a/", "", "http://b"]
    Relation.ReflTransGen Inserted (configured short none) (configured long (some "http://a//")) ∧
      Lists (configured short none) ["http://a", "http://b"] ∧
        resolve long (some "http://a//") = ["http://a", "http://b"] := by
  intro short long
  have hblank : Inserted (configured short none) (configured long none) :=
    .blank ["http://a/"] ["http://b"]
  have hslashed : slashed 1 "http://a/" = "http://a//" := by decide +kernel
  have hagain : Inserted (long ++ []) (long ++ [slashed 1 "http://a/"]) :=
    .again (by decide) (by decide) 1 []
  rw [hslashed] at hagain
  have hinserted : Relation.ReflTransGen Inserted (configured short none)
      (configured long (some "http://a//")) := .tail (.single hblank) hagain
  have hresolve : resolve short none = ["http://a", "http://b"] := by decide +kernel
  obtain ⟨hlists, hsame⟩ := lists_resolve short none
  exact ⟨hinserted, hresolve ▸ hlists, (hsame _ _ hinserted).trans hresolve⟩

end Calculator.Origin
