import DownloadQuery.Proofs.Text.Splitting
import DownloadQuery.Tracker
import Mathlib

/-!
# Trackers of announce URLs

A URL that is in the table belongs to the least alias that has it; otherwise it belongs to the least
alias with a URL on its server, and goes by its domain only if there is none. A URL is on the server
if it starts with the scheme and the network location of the other, and a slash. So an entry that
ends with the network location, or goes on with a query or a fragment, does not count
(`Tracker.aliasOf_covered`).
-/

namespace DownloadQuery

/-- The first word of a set is the least one. -/
theorem TagSet.head?_eq_some_iff {t : TagSet} {word : String} :
    t.toList.head? = some word ↔ IsLeast {other | other ∈ t.toList} word := by
  have hascending := t.ascending
  cases hlist : t.toList with
  | nil => simp [IsLeast]
  | cons first rest =>
    rw [hlist] at hascending
    obtain ⟨hfirst, -⟩ := List.pairwise_cons.1 hascending
    constructor
    · intro hhead
      obtain rfl : first = word := by simpa using hhead
      refine ⟨List.mem_cons_self, ?_⟩
      intro other hother
      rcases List.mem_cons.1 hother with rfl | hrest
      · exact le_rfl
      · exact (hfirst other hrest).le
    · rintro ⟨hmem, hleast⟩
      have hle : word ≤ first := hleast List.mem_cons_self
      rcases List.mem_cons.1 hmem with rfl | hrest
      · rfl
      · exact absurd (hfirst word hrest) (not_lt_of_ge hle)

namespace Tracker

/-- Whether a table gives an alias a URL with a property. -/
def HasUrl (table : AnnounceTable) (p : String → Prop) (short : String) : Prop :=
  ∃ urls, (short, urls) ∈ table ∧ ∃ known ∈ urls, p known

/-- The scheme and the network location of a URL, as it starts with them. -/
def originOf (url : List Char) : List Char := (splitUrl url).1 ++ "://".toList ++ (splitUrl url).2

/-- Whether a text is the front of a URL, of its scheme and its whole network location at least. -/
structure Covers (known url : String) : Prop where
  front : known.toList <+: url.toList
  origin : originOf url.toList <+: known.toList

/-- Whether a text starts as all URLs on the server of a URL do. -/
def OnServer (url known : String) : Prop := originOf url.toList ++ ['/'] <+: known.toList

variable {table : AnnounceTable} {url known short : String}

theorem HasUrl.mem {p : String → Prop} (h : HasUrl table p short) : short ∈ table.map (·.1) := by
  obtain ⟨urls, hentry, -⟩ := h
  exact List.mem_map_of_mem hentry

theorem mem_passing {test : String → Bool} :
    short ∈ (TagSet.ofList ((table.filter fun (_, urls) => urls.any test).map (·.1))).toList ↔
      HasUrl table (test · = true) short := by
  rw [TagSet.mem_ofList, List.mem_map]
  constructor
  · rintro ⟨⟨_, urls⟩, hentry, rfl⟩
    obtain ⟨hmem, hany⟩ := List.mem_filter.1 hentry
    exact ⟨urls, hmem, List.any_eq_true.1 hany⟩
  · rintro ⟨urls, hmem, hany⟩
    exact ⟨(short, urls), List.mem_filter.2 ⟨hmem, List.any_eq_true.2 hany⟩, rfl⟩

theorem leastAlias?_eq_some_iff {test : String → Bool} : leastAlias? table test = some short ↔
    IsLeast {other | HasUrl table (test · = true) other} short := by
  rw [leastAlias?, TagSet.head?_eq_some_iff]
  simp only [mem_passing]

theorem leastAlias?_eq_none_iff {test : String → Bool} :
    leastAlias? table test = none ↔ ∀ other, ¬ HasUrl table (test · = true) other := by
  rw [leastAlias?, List.head?_eq_none_iff, List.eq_nil_iff_forall_not_mem]
  simp only [mem_passing]

/-- What the alias of a URL is in each of the three cases. -/
theorem aliasOf_cases (table : AnnounceTable) (url : String) :
    IsLeast {other | HasUrl table (· = url) other} (aliasOf table url) ∨
    (∀ other, ¬ HasUrl table (· = url) other) ∧
      (IsLeast {other | HasUrl table (OnServer url) other} (aliasOf table url) ∨
        (∀ other, ¬ HasUrl table (OnServer url) other) ∧
          aliasOf table url = String.ofList (domainOf url.toList)) := by
  have hexact (known : String) : ((known == url) = true) = (known = url) := by simp
  have hserver (known : String) :
      ((serverOf url.toList).isPrefixOf known.toList = true) = OnServer url known := by
    rw [List.isPrefixOf_iff_prefix]
    rfl
  unfold aliasOf
  split
  · next short hshort =>
    left
    simpa only [hexact] using leastAlias?_eq_some_iff.1 hshort
  · next hnone =>
    right
    refine ⟨by simpa only [hexact] using leastAlias?_eq_none_iff.1 hnone, ?_⟩
    split
    · next short hshort =>
      left
      simpa only [hserver] using leastAlias?_eq_some_iff.1 hshort
    · next hnone' =>
      right
      exact ⟨by simpa only [hserver] using leastAlias?_eq_none_iff.1 hnone', rfl⟩

/-- After its network location a URL ends, or goes on with a path, a query or a fragment. -/
theorem Covers.exists_rest (h : Covers known url) :
    ∃ rest, url.toList = originOf url.toList ++ rest ∧
      ∀ c ∈ rest.head?, c = '/' ∨ c = '?' ∨ c = '#' := by
  have hparts (text : List Char) : ∃ rest,
      text = text.takeWhile (fun c => c != '/' && c != '?' && c != '#') ++ rest ∧
        ∀ c ∈ rest.head?, c = '/' ∨ c = '?' ∨ c = '#' := by
    refine ⟨_, List.takeWhile_append_dropWhile.symm, ?_⟩
    intro c hc
    have hstop := List.head?_dropWhile_not (fun c => c != '/' && c != '?' && c != '#') text
    rw [Option.mem_def.1 hc] at hstop
    simpa [or_assoc, imp_iff_not_or] using hstop
  have horigin := h.origin.trans h.front
  cases hcut : Text.cutAt? "://".toList url.toList with
  | none =>
    -- Without a scheme the URL would have to start with the mark behind the scheme.
    have hmark : "://".toList <+: url.toList := by
      refine List.IsPrefix.trans ?_ horigin
      simp only [originOf, splitUrl, hcut, Option.getD_none, List.nil_append]
      exact List.prefix_append _ _
    obtain ⟨rest, hrest⟩ := hmark
    have hfound := Text.cutAt?_append (by decide : "://".toList ≠ []) rest
    rw [hrest, hcut] at hfound
    cases hfound
  | some parts =>
    obtain ⟨scheme, after⟩ := parts
    obtain ⟨rest, hafter, hstop⟩ := hparts after
    refine ⟨rest, ?_, hstop⟩
    simp only [originOf, splitUrl, hcut, Option.getD_some]
    rw [List.append_assoc _ _ rest, ← hafter]
    exact Text.eq_of_cutAt? hcut

/-- What a text that covers the front of a URL may be. -/
theorem Covers.cases (h : Covers known url) :
    OnServer url known ∨ known.toList = originOf url.toList ∨
      ∃ mark ∈ ['?', '#'], originOf url.toList ++ [mark] <+: known.toList := by
  obtain ⟨rest, hurl, hstop⟩ := h.exists_rest
  obtain ⟨more, hknown⟩ := h.origin
  have hfront : more <+: rest := by
    have hfront := h.front
    rw [hurl, ← hknown] at hfront
    exact (List.prefix_append_right_inj _).1 hfront
  have hmark {c : Char} {tail : List Char} (hmore : more = c :: tail) :
      originOf url.toList ++ [c] <+: known.toList := by
    rw [← hknown, hmore]
    exact ⟨tail, by rw [List.append_assoc, List.singleton_append]⟩
  cases hmore : more with
  | nil =>
    rw [hmore, List.append_nil] at hknown
    exact .inr (.inl hknown.symm)
  | cons c tail =>
    have hhead : c ∈ rest.head? := by
      obtain ⟨later, rfl⟩ := hfront
      rw [hmore]
      rfl
    rcases hstop c hhead with rfl | rfl | rfl
    · exact .inl (hmark hmore)
    · exact .inr (.inr ⟨'?', by decide, hmark hmore⟩)
    · exact .inr (.inr ⟨'#', by decide, hmark hmore⟩)

/-- The alias of a URL of which some entry covers the front. If the URL is listed, it is the least
alias that lists it. Otherwise it is the least alias with a URL on the server of this one; if there
is none, the entry stops at the network location or goes on with a query or a fragment, and the
domain is all there is. So an entry that is the URL, or goes on with a slash, leads to an alias of
the table. -/
theorem aliasOf_covered (hentry : HasUrl table (· = known) short) (hcovers : Covers known url) :
    ((∃ other, HasUrl table (· = url) other) →
      IsLeast {other | HasUrl table (· = url) other} (aliasOf table url)) ∧
    ((∀ other, ¬ HasUrl table (· = url) other) → (∃ other, HasUrl table (OnServer url) other) →
      IsLeast {other | HasUrl table (OnServer url) other} (aliasOf table url)) ∧
    ((∀ other, ¬ HasUrl table (· = url) other) → (∀ other, ¬ HasUrl table (OnServer url) other) →
      aliasOf table url = String.ofList (domainOf url.toList) ∧
        (known.toList = originOf url.toList ∨
          ∃ mark ∈ ['?', '#'], originOf url.toList ++ [mark] <+: known.toList)) ∧
    (known = url ∨ OnServer url known → aliasOf table url ∈ table.map (·.1)) := by
  have hcases := aliasOf_cases table url
  have hserver (h : OnServer url known) : HasUrl table (OnServer url) short := by
    obtain ⟨urls, hmem, _, hknown, rfl⟩ := hentry
    exact ⟨urls, hmem, _, hknown, h⟩
  refine ⟨?listed, ?server, ?domain, ?found⟩
  case listed =>
    rintro ⟨other, hother⟩
    rcases hcases with hleast | ⟨hnone, -⟩
    · exact hleast
    · exact absurd hother (hnone other)
  case server =>
    rintro hunlisted ⟨other, hother⟩
    rcases hcases with hleast | ⟨-, hleast | ⟨hnone, -⟩⟩
    · exact absurd hleast.1 (hunlisted _)
    · exact hleast
    · exact absurd hother (hnone other)
  case domain =>
    intro hunlisted habsent
    rcases hcases with hleast | ⟨-, hleast | ⟨-, hdomain⟩⟩
    · exact absurd hleast.1 (hunlisted _)
    · exact absurd hleast.1 (habsent _)
    · exact ⟨hdomain, hcovers.cases.resolve_left fun h => habsent short (hserver h)⟩
  case found =>
    intro hfound
    rcases hcases with hleast | ⟨hunlisted, hleast | ⟨habsent, -⟩⟩
    · exact HasUrl.mem hleast.1
    · exact HasUrl.mem hleast.1
    · rcases hfound with rfl | hon
      · exact absurd hentry (hunlisted short)
      · exact absurd (hserver hon) (habsent short)

/-- An entry for all URLs on a server. -/
theorem aliasOf_covered_slash :
    let table : AnnounceTable := [("OBT", ["udp://open.abc.net:6969/", "http://abc.net:80/"])]
    HasUrl table (· = "udp://open.abc.net:6969/") "OBT" ∧
      Covers "udp://open.abc.net:6969/" "udp://open.abc.net:6969/announce?key=1" ∧
      aliasOf table "udp://open.abc.net:6969/announce?key=1" ∈ table.map (·.1) := by
  intro table
  have hentry : HasUrl table (· = "udp://open.abc.net:6969/") "OBT" :=
    ⟨_, List.mem_cons_self, _, List.mem_cons_self, rfl⟩
  have hcovers : Covers "udp://open.abc.net:6969/" "udp://open.abc.net:6969/announce?key=1" :=
    ⟨by decide, by decide⟩
  have hserver : OnServer "udp://open.abc.net:6969/announce?key=1" "udp://open.abc.net:6969/" := by
    unfold OnServer
    decide
  exact ⟨hentry, hcovers, (aliasOf_covered hentry hcovers).2.2.2 (.inr hserver)⟩

/-- An entry that stops at the network location is passed over. -/
theorem aliasOf_covered_bare :
    let table : AnnounceTable := [("OBT", ["http://tracker.example.org"])]
    HasUrl table (· = "http://tracker.example.org") "OBT" ∧
      Covers "http://tracker.example.org" "http://tracker.example.org/announce" ∧
      aliasOf table "http://tracker.example.org/announce" = "example.org" ∧
      "example.org" ∉ table.map (·.1) := by
  intro table
  refine ⟨⟨_, List.mem_cons_self, _, List.mem_cons_self, rfl⟩, ⟨by decide, by decide⟩, ?_, ?_⟩
  · cbv
  · decide

end Tracker
end DownloadQuery
