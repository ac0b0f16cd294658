import GlobalScheduler.SiteCacheInfo

/-! The scheduler's view of all sites.

A record is filed under its site's ID: every writer of the map files it so, and
a record that has no site yet may stand under any key. -/
namespace GlobalScheduler

open Go AList

structure Snapshot where
  siteCacheInfoMap : Map String SiteCacheInfo := ∅
  regionFlavorMap : Map String RegionFlavor := ∅
  flavorMap : Map String RegionFlavor := ∅
  keyed : ∀ key info site, siteCacheInfoMap.lookup key = some info → info.site = some site →
    site.siteID = key

namespace Snapshot

def empty : Snapshot where
  keyed := by intro key info site h; cases h

variable (snap : Snapshot)

def put (key : String) (info : SiteCacheInfo)
    (h : ∀ site, info.site = some site → site.siteID = key) : Snapshot where
  siteCacheInfoMap := snap.siteCacheInfoMap.insert key info
  regionFlavorMap := snap.regionFlavorMap
  flavorMap := snap.flavorMap
  keyed := by
    intro key' info' site hlook hsite
    by_cases hk : key' = key
    · subst hk
      rw [lookup_insert] at hlook
      cases hlook
      exact h site hsite
    · rw [lookup_insert_ne hk] at hlook
      exact snap.keyed key' info' site hlook hsite

theorem put_lookup_self (key : String) (info : SiteCacheInfo)
    (h : ∀ site, info.site = some site → site.siteID = key) :
    (snap.put key info h).siteCacheInfoMap.lookup key = some info :=
  lookup_insert _

theorem put_lookup_ne {key key' : String} (info : SiteCacheInfo)
    (h : ∀ site, info.site = some site → site.siteID = key) (hk : key' ≠ key) :
    (snap.put key info h).siteCacheInfoMap.lookup key' = snap.siteCacheInfoMap.lookup key' :=
  lookup_insert_ne hk

def remove (key : String) : Snapshot where
  siteCacheInfoMap := snap.siteCacheInfoMap.erase key
  regionFlavorMap := snap.regionFlavorMap
  flavorMap := snap.flavorMap
  keyed := by
    intro key' info' site hlook hsite
    by_cases hk : key' = key
    · subst hk
      rw [lookup_erase] at hlook
      cases hlook
    · rw [lookup_erase_ne hk] at hlook
      exact snap.keyed key' info' site hlook hsite

/-- `FlavorCache.GetFlavor`, whose maps are those of the snapshot during a cycle. -/
def getFlavor (flavorID region : String) : Option RegionFlavor :=
  if region = "" then snap.flavorMap.lookup flavorID
  else snap.regionFlavorMap.lookup (region ++ flavorDelimiter ++ flavorID)

end Snapshot

end GlobalScheduler
