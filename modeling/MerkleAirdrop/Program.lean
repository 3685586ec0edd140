/-
  MerkleAirdrop.Program
  ─────────────────────
  **THE PROGRAMS THAT INSTRUCTIONS NAME.**
-/
import MerkleAirdrop.Bytes

namespace MerkleAirdrop.Program

/-- The airdrop program where no other is named:
`ADis3cccJHS6dmj8MPCG1NGGuXBN2ZSaaXFwKKU7UUgF`. -/
def airdrop : Address :=
  ⟨[136, 251, 124, 140, 96, 113, 93, 153, 156, 251, 234, 97, 131, 101, 169, 208,
    8, 62, 244, 248, 42, 152, 129, 84, 4, 204, 231, 117, 70, 50, 99, 168], rfl⟩

/-- The token program: `TokenkegQfeZyiNwAJbNbGKPFXCWuBvf9Ss623VQ5DA`. -/
def token : Address :=
  ⟨[6, 221, 246, 225, 215, 101, 161, 147, 217, 203, 225, 70, 206, 235, 121, 172,
    28, 180, 133, 237, 95, 91, 55, 145, 58, 140, 245, 133, 126, 255, 0, 169], rfl⟩

/-- The program that keeps one token account per wallet and mint:
`ATokenGPvbdGVxr1b2hvZbsiqW5xWH25efTNsLJA8knL`. -/
def associatedToken : Address :=
  ⟨[140, 151, 37, 143, 78, 36, 137, 241, 187, 61, 16, 41, 20, 142, 13, 131,
    11, 90, 19, 153, 218, 255, 16, 132, 4, 142, 123, 216, 219, 233, 248, 89], rfl⟩

/-- The system program, thirty-two zero bytes: `11111111111111111111111111111111`. -/
def system : Address := Block.zero 32

end MerkleAirdrop.Program
