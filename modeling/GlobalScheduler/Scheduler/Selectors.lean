import GlobalScheduler.Scheduler.Conversion
import GlobalScheduler.Scheduler.Shipped

/-! What a user's regions select.

After the conversion the regions are read in three places: the site ID made of the last of
them says which records are looked at and what the availability filter lets pass, and the
list itself is what the region filter goes by. A site is taken if the site ID reaches it
and an entry of the list matches it, while the user means the second alone. -/
namespace GlobalScheduler.Selectors

open Go Schedule Filters Conversion SiteCacheInfo

/-- A selector as a user writes it. -/
inductive UserSelector where
  | pod (selector : Podv1.ResourceSelector)
  | allocation (selector : Allocv1.Selector)

namespace UserSelector

/-- The regions the user lists, each with its zones. -/
def regions : UserSelector → List (String × List String)
  | pod selector => selector.regions.map fun r => (r.region, r.availablityZone)
  | allocation selector => selector.regions.map fun r => (r.region, r.availabilityZone)

def converted : UserSelector → Selector
  | pod selector => getStackSelector selector
  | allocation selector => getStackSelectorFromAllocation selector

end UserSelector

/-- The site's record is looked at and both filters let it pass. -/
def Taken (ord : List String) (snap : Snapshot) (stack : Stack) (info : SiteCacheInfo) : Prop :=
  info ∈ candidates ord snap stack ∧ siteAvailability stack info = .ok .nil ∧
    regionAndAz stack info = .ok .nil

/-- The entry has no zones, or that of the site. -/
def ZoneFits (site : Site) (entry : String × List String) : Prop :=
  entry.2 = [] ∨ site.regionAzMap.availabilityZone ∈ entry.2

instance (site : Site) (entry : String × List String) : Decidable (ZoneFits site entry) :=
  inferInstanceAs (Decidable (_ ∨ _))

/-- Some entry names the site's region, and its zone fits. -/
def Named (user : UserSelector) (site : Site) : Prop :=
  ∃ entry ∈ user.regions, entry.1 = site.regionAzMap.region ∧ ZoneFits site entry

/-- Some entry has no region, and its zone fits. -/
def Unnamed (user : UserSelector) (site : Site) : Prop :=
  ∃ entry ∈ user.regions, entry.1 = "" ∧ ZoneFits site entry

/-- The site ID is the site's, or is filed nowhere, stands for a whole region and begins the
site's. -/
def Reached (snap : Snapshot) (siteID : String) (site : Site) : Prop :=
  site.siteID = siteID ∨
    (siteID ∉ snap.siteCacheInfoMap ∧ hasPrefix site.siteID siteID ∧ hasSuffix siteID siteDelimiter)

/-! ### The conversion -/

theorem siteIDOf_ne_empty (region : String) (availabilityZone : List String) :
    siteIDOf region availabilityZone ≠ "" := by
  have hdelimiter : siteDelimiter ≠ "" := by decide
  cases availabilityZone <;> simp [siteIDOf, String.append_eq_empty_iff, hdelimiter]

theorem lastSiteID_append (regions : List CloudRegion) (last : CloudRegion) :
    lastSiteID (regions ++ [last]) = siteIDOf last.region last.availabilityZone := by
  simp [lastSiteID]

theorem lastSiteID_ne_empty {regions : List CloudRegion} (h : regions ≠ []) : lastSiteID regions ≠ "" := by
  rw [← List.dropLast_append_getLast h, lastSiteID_append]
  exact siteIDOf_ne_empty _ _

namespace UserSelector
variable (user : UserSelector)

theorem converted_regions : user.converted.regions = user.regions.map fun entry => ⟨entry.1, entry.2⟩ := by
  cases user <;> simp [converted, regions, getStackSelector, getStackSelectorFromAllocation, withSiteID]

theorem converted_siteID : user.converted.siteID = lastSiteID user.converted.regions := by
  cases user <;> rfl

variable {user}

theorem converted_siteID_ne_empty (h : user.regions ≠ []) : user.converted.siteID ≠ "" := by
  rw [converted_siteID]
  refine lastSiteID_ne_empty ?_
  rw [converted_regions, ne_eq, List.map_eq_nil_iff]
  exact h

end UserSelector

/-! ### The three readers -/

section Readers
variable {ord : List String} {snap : Snapshot} {stack : Stack} {info : SiteCacheInfo} {site : Site}

/-- Which records are looked at: that of the site ID if there is one, and all otherwise. -/
theorem mem_candidates_iff (hfiled : snap.siteCacheInfoMap.lookup site.siteID = some info)
    (hsite : info.site = some site) (hid : stack.selector.siteID ≠ "") :
    info ∈ candidates ord snap stack ↔
      site.siteID = stack.selector.siteID ∨ stack.selector.siteID ∉ snap.siteCacheInfoMap := by
  rw [candidates, if_neg hid]
  cases hlook : snap.siteCacheInfoMap.lookup stack.selector.siteID with
  | none =>
    refine iff_of_true ?_ (Or.inr (AList.lookup_eq_none.mp hlook))
    exact Map.mem_values.mpr ⟨site.siteID, hfiled⟩
  | some info' =>
    have hmem : stack.selector.siteID ∈ snap.siteCacheInfoMap :=
      Map.mem_of_lookup hlook
    rw [List.mem_singleton]
    constructor
    · intro heq
      subst heq
      exact Or.inl (snap.keyed _ _ _ hlook hsite)
    · intro h
      cases h with
      | inl heq =>
        rw [heq, hlook] at hfiled
        exact (Option.some.inj hfiled).symm
      | inr habsent => exact absurd hmem habsent

/-- What the availability filter lets pass: the site of the site ID, and those of its region
if it stands for a whole region. -/
theorem siteAvailability_iff (hsite : info.site = some site)
    (hopen : site.status ≠ "Offline" ∧ site.status ≠ "Sellout") (hid : stack.selector.siteID ≠ "") :
    siteAvailability stack info = .ok .nil ↔ site.siteID = stack.selector.siteID ∨
      (hasPrefix site.siteID stack.selector.siteID ∧
        hasSuffix stack.selector.siteID siteDelimiter) := by
  have hget : info.getSite = .ok site := getSite_ok.mpr hsite
  have hclosed : ¬ (site.status = "Offline" ∨ site.status = "Sellout") := not_or.mpr hopen
  have hrefused : ∀ reason, unschedulable reason ≠ .nil := fun reason h => by cases h
  rw [siteAvailability, hget]
  show (if _ then _ else if _ then _ else _) = _ ↔ _
  rw [if_neg hclosed]
  split
  case isTrue h =>
    obtain ⟨-, hne, hprefix⟩ := h
    simp [Outcome.pure_ok, hrefused, Ne.symm hne, hprefix]
  case isFalse h =>
    refine iff_of_true rfl ?_
    by_contra hnone
    exact h ⟨hid, fun heq => hnone (Or.inl heq.symm), fun hboth => hnone (Or.inr hboth)⟩

/-- An entry as the region filter reads it: no region stands for any. -/
def Fits (site : Site) (entry : String × List String) : Prop :=
  (entry.1 = "" ∨ entry.1 = site.regionAzMap.region) ∧ ZoneFits site entry

instance (site : Site) (entry : String × List String) : Decidable (Fits site entry) :=
  inferInstanceAs (Decidable (_ ∧ _))

theorem regionEqual_eq (hsite : info.site = some site) (entry : String × List String) :
    regionEqual info ⟨entry.1, entry.2⟩ = .ok (decide (Fits site entry)) := by
  have hget : info.getSite = .ok site := getSite_ok.mpr hsite
  have hdiffers : differs entry.1 (·.regionAzMap.region) info =
      .ok (decide (¬ (entry.1 = "" ∨ entry.1 = site.regionAzMap.region))) := by
    unfold differs
    split
    case isTrue hempty => simp [hempty]; rfl
    case isFalse hempty => simp [hempty, hget]
  rw [regionEqual, hdiffers]
  show (if _ then _ else if _ then _ else _) = _
  by_cases hregion : entry.1 = "" ∨ entry.1 = site.regionAzMap.region
  · by_cases hzones : entry.2 = []
    · simp [hregion, hzones, Fits, ZoneFits]; rfl
    · simp [hregion, hzones, Fits, ZoneFits, hget]
  · simp [hregion, Fits]; rfl

theorem anyRegionEqual_eq (hsite : info.site = some site) (entries : List (String × List String)) :
    anyRegionEqual info (entries.map fun entry => ⟨entry.1, entry.2⟩) =
      .ok (decide (∃ entry ∈ entries, Fits site entry)) := by
  induction entries with
  | nil => simp [anyRegionEqual]; rfl
  | cons entry rest ih =>
    rw [List.map_cons, anyRegionEqual, regionEqual_eq hsite entry, ih]
    show (if _ then _ else _) = _
    by_cases hfits : Fits site entry <;> simp [hfits]; rfl

theorem regionAndAz_iff (hsite : info.site = some site) {entries : List (String × List String)}
    (hregions : stack.selector.regions = entries.map fun entry => ⟨entry.1, entry.2⟩) (hne : entries ≠ []) :
    regionAndAz stack info = .ok .nil ↔ ∃ entry ∈ entries, Fits site entry := by
  have hlist : stack.selector.regions ≠ [] := by rwa [hregions, ne_eq, List.map_eq_nil_iff]
  rw [regionAndAz, if_neg hlist, hregions, anyRegionEqual_eq hsite]
  show (if _ then _ else _) = _ ↔ _
  split
  case isTrue hfits => exact iff_of_true rfl (of_decide_eq_true hfits)
  case isFalse hnone =>
    refine iff_of_false (fun h => ?_) (fun hfits => hnone (decide_eq_true hfits))
    cases h

theorem taken_iff {user : UserSelector} (hregions : user.regions ≠ [])
    (hstack : stack.selector = user.converted) (hfiled : snap.siteCacheInfoMap.lookup site.siteID = some info)
    (hsite : info.site = some site) (hopen : site.status ≠ "Offline" ∧ site.status ≠ "Sellout") :
    Taken ord snap stack info ↔ Reached snap user.converted.siteID site ∧
      ∃ entry ∈ user.regions, Fits site entry := by
  have hid : stack.selector.siteID ≠ "" := by
    rw [hstack]
    exact UserSelector.converted_siteID_ne_empty hregions
  have hlist : stack.selector.regions = user.regions.map fun entry => ⟨entry.1, entry.2⟩ := by
    rw [hstack, user.converted_regions]
  rw [Taken, mem_candidates_iff hfiled hsite hid, siteAvailability_iff hsite hopen hid,
    regionAndAz_iff hsite hlist hregions, ← and_assoc, hstack, Reached]
  exact and_congr_left fun _ => by tauto

end Readers

theorem exists_fits_iff (user : UserSelector) (site : Site) :
    (∃ entry ∈ user.regions, Fits site entry) ↔ Named user site ∨ Unnamed user site := by
  simp only [Named, Unnamed, Fits, ← exists_or, ← and_or_left, ← or_and_right]
  exact exists_congr fun entry => by rw [or_comm (a := entry.1 = "")]

/-- **The sites taken are those the user names exactly if** every site named is reached by the
site ID, and no site is reached that only entries without a region fit. -/
theorem taken_iff_named_iff (user : UserSelector) (ord : List String) (snap : Snapshot)
    (stack : Stack) (info : SiteCacheInfo) (site : Site) (hregions : user.regions ≠ [])
    (hstack : stack.selector = user.converted)
    (hfiled : snap.siteCacheInfoMap.lookup site.siteID = some info)
    (hsite : info.site = some site) (hopen : site.status ≠ "Offline" ∧ site.status ≠ "Sellout") :
    (Taken ord snap stack info ↔ Named user site) ↔
      (Named user site → Reached snap user.converted.siteID site) ∧
        (Reached snap user.converted.siteID site → Unnamed user site → Named user site) := by
  rw [taken_iff hregions hstack hfiled hsite hopen, exists_fits_iff]
  constructor
  · intro h
    exact ⟨fun hnamed => (h.mpr hnamed).1, fun hreached hunnamed => h.mp ⟨hreached, Or.inr hunnamed⟩⟩
  · intro h
    obtain ⟨hreach, honly⟩ := h
    constructor
    · intro htaken
      cases htaken.2 with
      | inl hnamed => exact hnamed
      | inr hunnamed => exact honly htaken.1 hunnamed
    · intro hnamed
      exact ⟨hreach hnamed, Or.inl hnamed⟩

/-! ### One site -/

def stackOf (user : UserSelector) : Stack := { selector := user.converted }

/-- A site in zone `a` of region `r`. -/
def siteInR : Site := { siteID := "r--a", regionAzMap := ⟨"r", "a"⟩, status := "Normal" }

theorem siteInR_filed :
    (freshSites [("a", 1)]).siteCacheInfoMap.lookup siteInR.siteID = some (freshSite "a" 1) :=
  Snapshot.put_lookup_self (freshSites []) ("r--" ++ "a") (freshSite "a" 1) _

theorem taken_iff_named_region :
    Named (.pod { regions := [⟨"r", []⟩] }) siteInR ∧
      Reached (freshSites [("a", 1)]) (UserSelector.pod { regions := [⟨"r", []⟩] }).converted.siteID siteInR ∧
      Taken [] (freshSites [("a", 1)]) (stackOf (.pod { regions := [⟨"r", []⟩] })) (freshSite "a" 1) := by
  have hnamed : Named (.pod { regions := [⟨"r", []⟩] }) siteInR := ⟨("r", []), by decide, rfl, Or.inl rfl⟩
  have hreached : Reached (freshSites [("a", 1)])
      (UserSelector.pod { regions := [⟨"r", []⟩] }).converted.siteID siteInR :=
    Or.inr (by decide +kernel)
  have htaken := (taken_iff_named_iff (.pod { regions := [⟨"r", []⟩] }) [] _
    (stackOf (.pod { regions := [⟨"r", []⟩] })) _ siteInR (by decide) rfl siteInR_filed
    (by decide +kernel) (by decide)).mpr ⟨fun _ => hreached, fun _ _ => hnamed⟩
  exact ⟨hnamed, hreached, htaken.mpr hnamed⟩

theorem not_taken_of_refused {ord : List String} {snap : Snapshot} {stack : Stack}
    {info : SiteCacheInfo} {message : String}
    (h : siteAvailability stack info = .ok (unschedulable message)) : ¬ Taken ord snap stack info := by
  intro htaken
  have hpasses := htaken.2.1
  rw [h] at hpasses
  cases hpasses

/-- **Only the last region counts**: regions `r` and `s` are listed, by a pod or by an
allocation, and a site in `r` is not taken. -/
theorem first_region_lost :
    (freshSites [("a", 1)]).siteCacheInfoMap.lookup siteInR.siteID = some (freshSite "a" 1) ∧
    (freshSite "a" 1).site = some siteInR ∧
    (Named (.pod { regions := [⟨"r", []⟩, ⟨"s", []⟩] }) siteInR ∧
      ¬ Taken [] (freshSites [("a", 1)]) (stackOf (.pod { regions := [⟨"r", []⟩, ⟨"s", []⟩] }))
        (freshSite "a" 1)) ∧
    Named (.allocation { regions := [⟨"r", []⟩, ⟨"s", []⟩] }) siteInR ∧
      ¬ Taken [] (freshSites [("a", 1)]) (stackOf (.allocation { regions := [⟨"r", []⟩, ⟨"s", []⟩] }))
        (freshSite "a" 1) := by
  have hpod : siteAvailability (stackOf (.pod { regions := [⟨"r", []⟩, ⟨"s", []⟩] })) (freshSite "a" 1) =
      .ok (unschedulable "Site(r--a) not suitable!") := by decide +kernel
  have hallocation : siteAvailability (stackOf (.allocation { regions := [⟨"r", []⟩, ⟨"s", []⟩] }))
      (freshSite "a" 1) = .ok (unschedulable "Site(r--a) not suitable!") := by decide +kernel
  refine ⟨siteInR_filed, by decide +kernel, ⟨?_, not_taken_of_refused hpod⟩, ?_,
    not_taken_of_refused hallocation⟩
  · exact ⟨("r", []), by decide, rfl, Or.inl rfl⟩
  · exact ⟨("r", []), by decide, rfl, Or.inl rfl⟩

end GlobalScheduler.Selectors
