/-!
The protocols, the kinds of trade and the providers.
-/

namespace SolTrade.Trading

inductive DexType where
  | pumpFun
  | meteoraDammV2
  | pumpSwap
  | raydiumAmmV4
  | launchLab
  | bonk
  | stonkFun
  | raydiumCpmm
  | raydiumClmm
  | orcaWhirlpool
  | meteoraDlmm
  deriving DecidableEq

/-- `dex_type.value`. -/
def DexType.text : DexType → String
  | pumpFun => "PumpFun"
  | meteoraDammV2 => "MeteoraDammV2"
  | pumpSwap => "PumpSwap"
  | raydiumAmmV4 => "RaydiumAmmV4"
  | launchLab => "LaunchLab"
  | bonk => "Bonk"
  | stonkFun => "StonkFun"
  | raydiumCpmm => "RaydiumCpmm"
  | raydiumClmm => "RaydiumClmm"
  | orcaWhirlpool => "OrcaWhirlpool"
  | meteoraDlmm => "MeteoraDlmm"

inductive TradeType where
  | create
  | createAndBuy
  | buy
  | sell
  deriving DecidableEq

inductive SwqosType where
  | jito
  | nextBlock
  | zeroSlot
  | temporal
  | bloxroute
  | node1
  | flashBlock
  | blockRazor
  | astralane
  | stellium
  | lightspeed
  | soyas
  | speedlanding
  | helius
  | solami
  | lunarLander
  | glaive
  | default
  deriving DecidableEq

/-- `for swqos_type in SwqosType`. -/
def SwqosType.all : List SwqosType :=
  [jito, nextBlock, zeroSlot, temporal, bloxroute, node1, flashBlock, blockRazor, astralane,
    stellium, lightspeed, soyas, speedlanding, helius, solami, lunarLander, glaive, default]

theorem SwqosType.mem_all (t : SwqosType) : t ∈ all := by cases t <;> decide

end SolTrade.Trading
