import ConZone.State

set_option autoImplicit false

namespace ConZone

def l2pSlots : Nat := 3
def l2pSlotSize : Nat := 1020 * 1024 / 4 / 3

def putEnt (cache : L2pCache) (slot : Nat) (index : Int) (ent : L2pCacheEnt) : L2pCache :=
  { cache with mapping := Function.update cache.mapping slot (Function.update (cache.mapping slot) index ent) }

def nsTtLpns (p : Params) (nsid : Nat) : Nat := if nsid = p.zpp.nsid then p.zpp.ttLpns else p.zpp.peerTtLpns

def setL2pcacheidx (p : Params) (cache : L2pCache) (nsid lpn : Nat) (index : Int) : L2pCache :=
  if lpn < nsTtLpns p nsid then
    { cache with idx := Function.update cache.idx nsid (Function.update (cache.idx nsid) lpn index) }
  else cache

def getL2pcacheidx (p : Params) (cache : L2pCache) (lpn : Nat) : Int :=
  if lpn < p.zpp.ttLpns then cache.idx p.zpp.nsid lpn else -1

-- The search for the first entry that is not resident; a slot has at most
-- l2pSlotSize entries to step over.
def evictIdx (cache : L2pCache) (slot : Nat) : Nat → Int → Int
  | 0, index => index
  | fuel + 1, index =>
      if index ≠ cache.tail slot ∧ (cache.mapping slot index).resident then
        evictIdx cache slot fuel (cache.mapping slot index).next
      else index

def unlinkEnt (cache : L2pCache) (slot : Nat) (index : Int) : L2pCache :=
  let ent := cache.mapping slot index
  if index = cache.head slot then
    let cache := putEnt cache slot ent.next { cache.mapping slot ent.next with last := -1 }
    { cache with head := Function.update cache.head slot ent.next }
  else
    let cache := putEnt cache slot ent.last { cache.mapping slot ent.last with next := ent.next }
    putEnt cache slot ent.next { cache.mapping slot ent.next with last := ent.last }

def moveToTail (cache : L2pCache) (slot : Nat) (index : Int) : L2pCache :=
  let tail := cache.tail slot
  let cache := unlinkEnt cache slot index
  let cache := putEnt cache slot index { cache.mapping slot index with last := tail, next := -1 }
  let cache := putEnt cache slot tail { cache.mapping slot tail with next := index }
  { cache with tail := Function.update cache.tail slot index }

def fillEnt (p : Params) (cache : L2pCache) (slot : Nat) (index : Int) (la : Nat) (gran : MapType) (res : Bool) :
    L2pCache :=
  putEnt cache slot index
    { cache.mapping slot index with nsid := p.zpp.nsid, lpn := some la, granularity := gran, resident := res }

def l2pReplace (p : Params) (cache : L2pCache) (la : Nat) (gran : MapType) (res : Bool) : Int × L2pCache :=
  let slot := la % l2pSlots
  let index := evictIdx cache slot l2pSlotSize (cache.head slot)
  if index = cache.tail slot ∧ (cache.mapping slot index).resident then (-1, cache)
  else
    let cache := if index = cache.tail slot then cache else moveToTail cache slot index
    let old := cache.mapping slot index
    let cache := match old.lpn with
      | some lpn => setL2pcacheidx p cache old.nsid lpn (-1)
      | none => cache
    (index, fillEnt p cache slot index la gran res)

def l2pAccess (cache : L2pCache) (la : Nat) (index : Int) : L2pCache :=
  let slot := la % l2pSlots
  if index = -1 ∨ index = cache.tail slot then cache else moveToTail cache slot index

def l2pInsert (p : Params) (cache : L2pCache) (la : Nat) (gran : MapType) (res : Bool) : Int × L2pCache :=
  let slot := la % l2pSlots
  let index := cache.slotLen slot
  if index = l2pSlotSize then l2pReplace p cache la gran res
  else
    let tail := cache.tail slot
    let cache := fillEnt p cache slot index la gran res
    let cache :=
      if index = 0 then putEnt cache slot index { cache.mapping slot index with next := -1, last := -1 }
      else
        let cache := putEnt cache slot index { cache.mapping slot index with next := -1, last := tail }
        let cache := putEnt cache slot tail { cache.mapping slot tail with next := index }
        { cache with tail := Function.update cache.tail slot index }
    (index, { cache with slotLen := Function.update cache.slotLen slot (index + 1) })

def checkResident (gran : MapType) : Bool := gran != .pageMap

end ConZone
