import GlobalScheduler.Scheduler.ClusterEvents

/-! The names of the sites.

The ID of a site joins the region and the zone of its cluster with `--`, and the region is
read back as what stands before the first `--`. A dash at the end of a region or at the
beginning of a zone runs into the delimiter: `a-` with `b`, and `a` with `-b`, both give
`a---b`, and the region read back is `a`. -/
namespace GlobalScheduler.ClusterEvents

open Go Clusterv1 RegionAzMap List

/-- A name the delimiter does not occur in. -/
def IsName (name : String) : Prop := name ≠ "" ∧ ¬ siteDelimiter.toList <:+: name.toList

structure Named (cluster : Cluster) : Prop where
  region : IsName cluster.spec.region.region
  zone : IsName cluster.spec.region.availabilityZone

/-! ### Dashes -/

theorem exists_of_hasSuffix {s affix : String} (h : hasSuffix s affix = true) : ∃ rest, s = rest ++ affix := by
  obtain ⟨rest, hrest⟩ := isSuffixOf_iff_suffix.mp h
  refine ⟨String.ofList rest, String.toList_injective ?_⟩
  rw [String.toList_append, String.toList_ofList, hrest]

theorem exists_of_hasPrefix {s affix : String} (h : hasPrefix s affix = true) : ∃ rest, s = affix ++ rest := by
  obtain ⟨rest, hrest⟩ := isPrefixOf_iff_prefix.mp h
  refine ⟨String.ofList rest, String.toList_injective ?_⟩
  rw [String.toList_append, String.toList_ofList, hrest]

theorem siteDelimiter_eq : siteDelimiter = "-" ++ "-" := by decide

/-- A name without the delimiter that does not end with a dash is over before the delimiter
begins. -/
theorem not_begun {name rest : List Char} (hname : ¬ siteDelimiter.toList <:+: name)
    (hlast : ¬ ['-'] <:+ name) (before : List Char) (c : Char) (after : List Char)
    (hsplit : name = before ++ c :: after) : ¬ siteDelimiter.toList <+: c :: after ++ rest := by
  intro hbegins
  have hdash : c = '-' := (cons_prefix_cons.mp hbegins).1.symm
  cases after with
  | nil => exact hlast ⟨before, by rw [hsplit, hdash]⟩
  | cons d after =>
    have hsecond : d = '-' := (cons_prefix_cons.mp (cons_prefix_cons.mp hbegins).2).1.symm
    exact hname ⟨before, after, by rw [hsplit, hdash, hsecond]; simp [siteDelimiter]⟩

variable {region rest : String}

theorem getRegionName_eq (zone : String) (hname : ¬ siteDelimiter.toList <:+: region.toList)
    (hlast : hasSuffix region "-" = false) : getRegionName (region ++ siteDelimiter ++ zone) = region := by
  have hnonempty : region ++ siteDelimiter ++ zone ≠ "" := by
    intro hempty
    have hlist := congrArg String.toList hempty
    simp [siteDelimiter] at hlist
  unfold getRegionName
  rw [if_neg hnonempty]
  apply split_headD rfl (by decide)
  apply not_begun hname
  intro hdash
  rw [← isSuffixOf_iff_suffix] at hdash
  exact Bool.eq_false_iff.mp hlast hdash

theorem not_hasSuffix_of_name (hname : ¬ siteDelimiter.toList <:+: (rest ++ "-").toList) :
    hasSuffix rest "-" = false := by
  apply Bool.eq_false_iff.mpr
  intro hlast
  obtain ⟨rest', rfl⟩ := exists_of_hasSuffix hlast
  apply hname
  rw [String.append_assoc, ← siteDelimiter_eq, String.toList_append]
  exact (suffix_append _ _).isInfix

theorem not_infix_of_append (hname : ¬ siteDelimiter.toList <:+: (rest ++ "-").toList) :
    ¬ siteDelimiter.toList <:+: rest.toList := by
  intro hinfix
  apply hname
  rw [String.toList_append]
  exact hinfix.trans (prefix_append _ _).isInfix

theorem dash_moves (rest zone : String) :
    rest ++ "-" ++ siteDelimiter ++ zone = rest ++ siteDelimiter ++ ("-" ++ zone) := by
  apply String.toList_injective
  simp [siteDelimiter]

/-- **A region that ends with a dash is read back without it.** -/
theorem getRegionName_dash (zone : String) (hname : ¬ siteDelimiter.toList <:+: (rest ++ "-").toList) :
    getRegionName (rest ++ "-" ++ siteDelimiter ++ zone) = rest := by
  rw [dash_moves]
  exact getRegionName_eq _ (not_infix_of_append hname) (not_hasSuffix_of_name hname)

theorem append_dash_ne (rest : String) : rest ++ "-" ≠ rest := by
  intro hsame
  have hlength := congrArg (fun s : String => s.toList.length) hsame
  simp at hlength

theorem getRegionName_iff (zone : String) (hname : ¬ siteDelimiter.toList <:+: region.toList) :
    getRegionName (region ++ siteDelimiter ++ zone) = region ↔ hasSuffix region "-" = false := by
  constructor
  · intro hregion
    apply Bool.eq_false_iff.mpr
    intro hlast
    obtain ⟨rest, rfl⟩ := exists_of_hasSuffix hlast
    rw [getRegionName_dash zone hname] at hregion
    exact append_dash_ne rest hregion.symm
  · exact getRegionName_eq zone hname

/-! ### Two pairs with one ID -/

/-- Where the region read back is the region, another pair with the ID has the dash that
begins the zone at the end of its region. -/
theorem same_siteID {zone region' zone' : String} (hregion : ¬ siteDelimiter.toList <:+: region.toList)
    (hlast : hasSuffix region "-" = false) (hregion' : ¬ siteDelimiter.toList <:+: region'.toList)
    (hsame : region' ++ siteDelimiter ++ zone' = region ++ siteDelimiter ++ zone) :
    region' = region ∧ zone' = zone ∨ region' = region ++ "-" ∧ zone = "-" ++ zone' := by
  have hread := getRegionName_eq zone hregion hlast
  rw [← hsame] at hread
  cases hlast' : hasSuffix region' "-" with
  | false =>
    left
    rw [getRegionName_eq zone' hregion' hlast'] at hread
    rw [hread, String.append_right_inj] at hsame
    exact ⟨hread, hsame⟩
  | true =>
    right
    obtain ⟨rest, rfl⟩ := exists_of_hasSuffix hlast'
    rw [getRegionName_dash zone' hregion'] at hread
    refine ⟨by rw [hread], ?_⟩
    rw [dash_moves, hread, String.append_right_inj] at hsame
    exact hsame.symm

/-- No dash runs into the delimiter. -/
def NoDashAtDelimiter (cluster : Cluster) : Prop :=
  hasSuffix cluster.spec.region.region "-" = false ∧
    (hasPrefix cluster.spec.region.availabilityZone "-" = true → cluster.spec.region.availabilityZone = "-")

/-- What the ID of a site says of its cluster. -/
structure SiteIDFaithful (cluster : Cluster) : Prop where
  /-- Another region or zone gives another ID. -/
  determines : ∀ other, Named other →
    (convertClusterToSite other).siteID = (convertClusterToSite cluster).siteID →
    (convertClusterToSite other).regionAzMap = (convertClusterToSite cluster).regionAzMap
  region : getRegionName (convertClusterToSite cluster).siteID = cluster.spec.region.region
  /-- The loop over the flavors of the site looks each of them up in the region. -/
  looksUp : ∀ ord types regionFlavors (n : SiteCacheInfo), n.site = some (convertClusterToSite cluster) →
    n.updateSiteFlavor ord types regionFlavors =
      n.updateFlavors types cluster.spec.region.region regionFlavors
        ((Map.visits ord n.allocatableFlavor).filter (· ∈ n.allocatableFlavor))
  /-- It finds there what was filed for the flavor. -/
  finds : ∀ snap flavorId,
    (updateRegionFlavor cluster.spec.region.region snap flavorId).regionFlavorMap.lookup
        (getRegionName (convertClusterToSite cluster).siteID ++ flavorDelimiter ++ flavorId) =
      snap.flavorMap.lookup flavorId

theorem updateRegionFlavor_lookup (region : String) (snap : Snapshot) (flavorId : String) :
    (updateRegionFlavor region snap flavorId).regionFlavorMap.lookup (region ++ flavorDelimiter ++ flavorId) =
      snap.flavorMap.lookup flavorId := by
  unfold updateRegionFlavor
  cases snap.flavorMap.lookup flavorId with
  | none => exact AList.lookup_erase _ _
  | some flavor => exact AList.lookup_insert _

theorem isName_append_dash (hregion : IsName region) (hlast : hasSuffix region "-" = false) :
    IsName (region ++ "-") := by
  constructor
  · intro hempty
    have hlist := congrArg String.toList hempty
    simp at hlist
  · intro hinfix
    rw [String.toList_append] at hinfix
    rcases infix_concat_iff.mp hinfix with hend | hinside
    · rcases suffix_concat_iff.mp hend with hnone | ⟨dash, hdash, hsuffix⟩
      · exact absurd hnone (by decide)
      · have hone : dash = ['-'] := (append_inj' hdash rfl).1.symm
        apply Bool.eq_false_iff.mp hlast
        rw [hone] at hsuffix
        exact isSuffixOf_iff_suffix.mpr hsuffix
    · exact hregion.2 hinside

/-- **The ID of a site is faithful to its cluster exactly if no dash runs into the
delimiter.** -/
theorem siteIDFaithful_iff {cluster : Cluster} (hnamed : Named cluster) :
    SiteIDFaithful cluster ↔ NoDashAtDelimiter cluster := by
  have hread := getRegionName_iff cluster.spec.region.availabilityZone hnamed.region.2
  constructor
  · intro hfaithful
    have hlast := hread.mp hfaithful.region
    refine ⟨hlast, fun hfirst => ?_⟩
    by_contra hzone
    obtain ⟨zone, hcut⟩ := exists_of_hasPrefix hfirst
    -- The pair with the dash on the other side has the same ID.
    let other : Cluster := { spec := { region := ⟨cluster.spec.region.region ++ "-", zone⟩ } }
    have hother : Named other := by
      refine ⟨isName_append_dash hnamed.region hlast, ?_, fun hinfix => hnamed.zone.2 ?_⟩
      · intro hempty
        apply hzone
        rw [hcut, show zone = "" from hempty, String.append_empty]
      · rw [hcut, String.toList_append]
        exact hinfix.trans (suffix_append _ _).isInfix
    have hsame : (convertClusterToSite other).siteID = (convertClusterToSite cluster).siteID := by
      show cluster.spec.region.region ++ "-" ++ siteDelimiter ++ zone =
        cluster.spec.region.region ++ siteDelimiter ++ cluster.spec.region.availabilityZone
      rw [dash_moves, hcut]
    exact append_dash_ne _ (congrArg region (hfaithful.determines other hother hsame))
  · intro hdashes
    have hregion : getRegionName (convertClusterToSite cluster).siteID = cluster.spec.region.region :=
      hread.mpr hdashes.1
    refine ⟨fun other hother hsame => ?_, hregion, fun ord types regionFlavors n hsite => ?_, fun snap flavorId => ?_⟩
    · rcases same_siteID hnamed.region.2 hdashes.1 hother.region.2 hsame with hpair | hmoved
      · show mk _ _ = mk _ _
        rw [hpair.1, hpair.2]
      · -- The zone would begin with a dash, and so be one.
        have hfirst : hasPrefix cluster.spec.region.availabilityZone "-" = true := by
          unfold hasPrefix
          rw [hmoved.2, String.toList_append]
          exact isPrefixOf_iff_prefix.mpr (prefix_append _ _)
        have hzone := hmoved.2.symm.trans (hdashes.2 hfirst)
        have hempty : other.spec.region.availabilityZone = "" := by
          apply (String.append_right_inj "-").mp
          rw [hzone, String.append_empty]
        exact absurd hempty hother.zone.1
    · unfold SiteCacheInfo.updateSiteFlavor
      rw [SiteCacheInfo.getSite_ok.mpr hsite, ← hregion]
      rfl
    · rw [hregion]
      exact updateRegionFlavor_lookup _ snap flavorId

/-- Two clusters with one ID. -/
theorem siteID_collides : (convertClusterToSite { spec := { region := ⟨"a-", "b"⟩ } }).siteID =
        (convertClusterToSite { spec := { region := ⟨"a", "-b"⟩ } }).siteID ∧
      (convertClusterToSite { spec := { region := ⟨"a-", "b"⟩ } }).regionAzMap ≠
        (convertClusterToSite { spec := { region := ⟨"a", "-b"⟩ } }).regionAzMap ∧
      getRegionName (convertClusterToSite { spec := { region := ⟨"a-", "b"⟩ } }).siteID = "a" ∧
      Named { spec := { region := ⟨"a-", "b"⟩ } } ∧ Named { spec := { region := ⟨"a", "-b"⟩ } } := by
  refine ⟨by decide, by decide, by decide, ⟨⟨?_, ?_⟩, ?_, ?_⟩, ⟨?_, ?_⟩, ?_, ?_⟩ <;> decide

/-- The pair of a cluster whose names have dashes inside only. -/
theorem siteIDFaithful_of_inner_dashes : SiteIDFaithful { spec := { region := ⟨"us-west-1", "az-1"⟩ } } := by
  apply (siteIDFaithful_iff ⟨⟨?_, ?_⟩, ?_, ?_⟩).mpr ⟨?_, ?_⟩ <;> decide

end GlobalScheduler.ClusterEvents
