import DeathRoll.Dw.Tickets

/-! # Treasury functions

`dw.treasury_sweep` takes gold out of the bank; `dw.treasury_withdraw_to_user`
pays a user from it, and `dw.resolve_dispute` calls it for refunds.
-/

namespace DeathRoll

open Relational Tx

def treasurySweep (env : Env) (pAmount pAdminId : Option Int) (pReason : Option String) :
    LedgerTx Int := do
  let amount ← require .amountMustBePositive pAmount
  raiseIf (amount ≤ 0) .amountMustBePositive
  let vBefore ← require .treasuryRowMissing ((← get).balance? (some 0))
  raiseIf (vBefore < amount) (.insufficientTreasurySweep (some vBefore) (some amount))
  updateBalance 0 fun row => { row with balance := vBefore - amount }
  let _ ← auditLogInsertWithChain env
    { actorType := .admin
      actorId := pAdminId
      targetId := some 0
      action := some "treasury_swept"
      amount := some amount
      balanceBefore := some vBefore
      balanceAfter := some (vBefore - amount)
      reason := some (pReason.getD "admin treasury sweep")
      refType := some "treasury"
      refId := some ("sweep:" ++ toString (epochSeconds env.now))
      botName := "dw"
      metadata := .obj [("admin_id", .ofInt? pAdminId)] }
  return vBefore - amount

def treasuryWithdrawToUser (env : Env) (pAmount pTargetUser pAdminId : Option Int)
    (pReason : Option String) : LedgerTx Unit := do
  let amount ← require .amountMustBePositive pAmount
  raiseIf (amount ≤ 0) .amountMustBePositive
  raiseIf (IsEq pTargetUser (some 0)) .cannotWithdrawToTreasurySelf
  let vTreasuryBefore ← require .treasuryRowMissing ((← get).balance? (some 0))
  raiseIf (vTreasuryBefore < amount)
    (.insufficientTreasurySend (some vTreasuryBefore) (some amount))
  let targetUser ← notNull "discord_id" pTargetUser
  insertUser targetUser
  insertBalance targetUser
  let vUserBefore := (← get).balance? (some targetUser)
  let vUserAfter ← nullableBigint (vUserBefore.map fun balance => balance + amount)
  updateBalance 0 fun row => { row with balance := row.balance - amount }
  updateBalance targetUser fun row => { row with balance := vUserAfter.getD 0 }
  let _ ← auditLogInsertWithChain env
    { actorType := .admin
      actorId := pAdminId
      targetId := some 0
      action := some "treasury_to_user_debit"
      amount := some amount
      balanceBefore := some vTreasuryBefore
      balanceAfter := some (vTreasuryBefore - amount)
      reason := some (pReason.getD "treasury → user")
      refType := some "treasury"
      refId := some ("to_user:" ++ toString targetUser)
      botName := "dw"
      metadata := .obj [("target_user", .int targetUser)] }
  let _ ← auditLogInsertWithChain env
    { actorType := .admin
      actorId := pAdminId
      targetId := some targetUser
      action := some "treasury_to_user_credit"
      amount := some amount
      balanceBefore := vUserBefore
      balanceAfter := vUserAfter
      reason := some (pReason.getD "treasury → user")
      refType := some "treasury"
      refId := pAdminId.map fun admin => "from_treasury:" ++ toString admin
      botName := "dw"
      metadata := .obj [("admin_id", .ofInt? pAdminId)] }

end DeathRoll
