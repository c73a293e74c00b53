import TaroTria.Prisma.Client

/-!
# Consuming an unlock earned with ads
-/

namespace TaroTria

open Transactions

namespace RewardsService

def REWARD_ADS_REQUIRED : RewardType → Nat
  | .DAILY_CARD_UNLOCK => 1
  | .TAROT_READING_UNLOCK => 5
  | .FLASH_OFFER_UNLOCK => 2

def tryConsumeUnlock (userId : Id) (rewardType : RewardType) : TxM Bool := do
  let count ← Db.rewardProgressOf.updateMany (userId, rewardType)
    (fun currentCount => REWARD_ADS_REQUIRED rewardType ≤ currentCount) (fun _ => 0)
  return 0 < count

variable {Call : Type} {G : Discipline Db RowWrite RowRef Call} {D : Db} {L : List RowWrite}

/-- The row of a consumed unlock: the counter starts again. -/
def unlockWrites (userId : Id) (rewardType : RewardType) : List RowWrite :=
  [.rewardProgress (userId, rewardType) (some 0)]

theorem wp_tryConsumeUnlock {userId : Id} {rewardType : RewardType}
    {P : Bool → List RowWrite → Prop} (h₀ : P false L)
    (h₁ : ∀ currentCount, (view L D).rewardProgress.lookup (userId, rewardType) = some currentCount →
      REWARD_ADS_REQUIRED rewardType ≤ currentCount →
      P true (L ++ unlockWrites userId rewardType)) :
    (tryConsumeUnlock userId rewardType).wp G D P L := by
  unfold tryConsumeUnlock
  apply Tx.wp_bind
  apply Db.rewardProgressOf.wp_updateMany
  · intro _ _ _
    exact h₀
  · intro currentCount hc hr
    exact h₁ currentCount hc (by simpa using hr)

/-- `tryConsumeUnlock` answers `true` exactly when it starts the counter again. -/
theorem wp_tryConsumeUnlock_iff {userId : Id} {rewardType : RewardType}
    (hL : RowWrite.rewardProgress (userId, rewardType) (some 0) ∉ L) :
    (tryConsumeUnlock userId rewardType).wp G D (fun consumed L' => consumed = true ↔
      RowWrite.rewardProgress (userId, rewardType) (some 0) ∈ L') L := by
  apply wp_tryConsumeUnlock
  · simpa using hL
  · intro _ _ _
    simp [unlockWrites]

end RewardsService

end TaroTria
