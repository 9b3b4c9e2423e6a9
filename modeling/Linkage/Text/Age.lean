import Linkage.Text.Category

/-! When characters came into the standard. -/
namespace Linkage

/-- The characters that are new in each version, from the first one on. -/
def ages : List NamedSet := [
  ⟨["1.1", "v11"],
    .ofTable "
      AtIEbEcEdLHbVBKWcSbACSCEBDBFHBBBUBbSBHDBBBBBBBBSNMBcOBMBbPJcBCCCCDbCCICCcDbMCHBbNBBbMKBJMb
      BFFXBOBDBBbAFTNOCcUCFBPBbECKtZDBcBCSCFDZQDBICCCWBHBBDECBBHCCCDJBECBFCVHBCGECCWBHBCBCBCCBBF
      ECCDLEBBHPMDBHBBBDBWBHBCBFCKBDBDCBPBFKRDBICCCWBHBCCECIDCCDICECBDELRCBGDDBEDCBBBCDCDDDIBDEF
      DDBEJBPMODBIBDBXBKBFEHBDBEHCJCEKSCBIBDBXBKBFEHBDBEHCHBBCEKSCBIBDBXBQEGCDBEJBICEKfPcGEbDbLC
      BBCCBBCBGEBHBDBBBBCCBNBDCFBBBGCKCCrIbMKbNEBEdMFcQFdEeoKfZFdMGWCGCbMCGCIBBBBBBBbFCcBBPBOCGB
      TCDBJBbVBXbJHDbBRLbLSbEcFbAbWNdNVjIOBBeRfDbLbBLVfJVfUKdCQUGdIfPEBECbCBbJBBBEDBBHCHObFDYBOd
      dHcEHBBdGEGCdQGbOEdQBQdSbDDbKbCbCDbYPMEbVBePEdVCbFjwBbexYyjQjxUiCHMFGZBFBBBCBCBeEbHoBQcMCc
      CbOMbKEMVEKBTBEEDBBBfFCBBdQCdQDGCGCGCDDHBHOD"⟩,
  ⟨["2.0", "v20"],
    .ofTable "
      ccVRBNUBdmXcUBbHHbBEGBBBVDHBBfqNBuHBcatWqnSeifYCdsyOCdsyOCdsyOCdsyOCdsyOCdsyOCdsyOCdsyOCds
      yOCdsyOCdsyOCdsyOCdsyOhlxI"⟩,
  ⟨["2.1", "v21"],
    .ofTable "mjSBdgoTB"⟩,
  ⟨["3.0", "v30"],
    .ofTable "
      tIEbEICSeNFbXBKFdJJTBeMBDBBBBBBBbEBMBcOBMBbQCCEdOCgABhSDdUCFBPBbQFBOBbEDbBcBbXcfHCBSDYBJBB
      CHDBEGBBBISDoJBbRBXDHBBDBPCBbWbIBFBCBHDEGbAqGHBcLBBBECHBBBECbNBBBECbFBBBECHBBBECHBHBXBbFBB
      BECHBbNBTGbCbJdHMyGJbDDdDfNdPDKWPBKGdKIbQcwBBYGdRDbYCdHCcUBdZJkJBeRBBbEfICrPIbHBdICpIjWccE
      bABdLMiGbAMcIDDBnPYwMjtEbfeGbsVDSCQBMBDBBbgsCBbvVD"⟩,
  ⟨["3.1", "v31"],
    .ofTable "
      bmYCdqqCbGbxWbFBEMbBgZbMCbMczdQjMKbNDgYvAdHBcTBCCBCCCEBMBBBEBCBcNBECIBHBbCBEBFBBDHBnAElEEb
      YpdWcleTbetDuWbpcqTBbEdS"⟩,
  ⟨["3.2", "v32"],
    .ofTable "
      uYBlQBTNeACbCBfRCcFCCCCCbXQnMCmJBdnHCchJNBHLXJUMNBDBCdiXBGFEBHFNBcKCbYHdEPgMMjIOeUBbEcAkYU
      fVKdKIWCdMMCKiOOdMbCEQjWtSbzNDdJCICdQBjGQdDPdDPbrdICQBMBDBbgjAcHbjDBDQcBCbSBjBC"⟩,
  ⟨["4.0", "v40"],
    .ofTable "
      uZBSDePCcLRdCIFDfVFtWEJJcMDfTCPBbTDbDDqUBhCBcPBBBfGBdGDNBcPBcHBeZIhLCefNBSKkCbDDMEMEBDbQCF
      eDbGbdOeEbcPCiWBzJClQBkQCeMIOCbrAOcrNCbXBbRCdAEgLEdVCbFBjtOcMcoqVBcVCqXMBbABTBCBPCObIeTFDE
      bTDJwEbEBBfECbMdCCKbgWGCBBbSBCDBCBcyuIdJnYBbtkdAjG"⟩,
  ⟨["4.1", "v41"],
    .ofTable "
      vVLkSFgDEjMCgOBbIDcPBSBcGGjHbEuHBdCBsTBbVBbmNClJCBBkGBcLBcLBbNBbFBbFBbFBPBbNBXCbFbAcgCbQGb
      AGKECbGbCCCbgMdKzHCBHbXFbDEcBBdCBPByULwABdXCSLFQkKHbgHGjCbVBbVbHeDObTKcCJBQXJHBHBHBHBHBHBH
      BHbHYECbjUQgSBbpiTWctOXiZbSbfeAeCbfQKbfAcXuNbKEOciSEBCFIBDBbBEDEJIJcxpVcSbrAC"⟩,
  ⟨["5.0", "v50"],
    .ofTable "
      wGOlNDmZBbQGQEgKBtXcHoUCBCbhICNCfiJcYEbTwLHbZCbcUEdPCcBBxBMbbMBkQEbgJHFEmENHEbulJEFClAcEbk
      oMbAFBirGbhVfPdVNEcogISbqUC"⟩,
  ⟨["5.1", "v51"],
    .ofTable "
      bhWECCdJBhBBfKQiSFLFbGFlQStDCiOBbJBhYBbDCeEBeEBbACICUIhHBGBbDCMGDHsXCdTBDDcZBFBCBHDEGbAcME
      CdbEBbbXbRDMcScEDPDbZmTbCgZEdMGnSBfJBdQBcBEbyABVKDEkEBbFEbfFFEbPDFkUDBDEGnQbGYECTbdKBgGUbp
      pOIbzOlOUbGCSIbCfBFCeDeGFeYcRJMbMdGLBgEcDJOCKCEbfsUDbhPMcAbUfAbDDbXckDbAFBcxsJBlrQbSEdW"⟩,
  ⟨["5.2", "v52"],
    .ofTable "
      byQCbcCbUCPhLBcZBGBbJCeYBcfPEhLEhGFcQFdEGtSByGJvOcSgYCbUBcRcLBbDCLGKGOvAbJkGBbaUDfVDcCBxIB
      baRCbDDEKBTBBEYdJBbnHFkSBNCeDHmHBboCMbplSIbxKbWqAdKmAKgKbCdWbDDdABLECeYbCEcPYFiQbUCKqoKXEb
      XnbBDfgCWBJhECmMbGeYcCDbDCbBFIeYcVuPbFtTcOlvQbpFctnDLFbFCBLBBBCBDBDFIBHBZBBCCBKECBeHBPbIOJ
      cqlJgdP"⟩,
  ⟨["6.0", "v60"],
    .ofTable "
      bySCjOBcKBsMbCCBiLCTBGCbBFtMGqRBQBTBwBEcVCbiOCdeNcAIEtOBzOIbCBbfJLbcCBTBBEbDBECbCBbJBBBEDJ
      CcADYBOBOCcdKBOBbpODbseNClNCBCOKdCBbdUGCGCGJHBHbemTQhrIdAEbEbheEvXbalBCymGPCOCPBPdCBBLBBBC
      BDBDFIBHBKGJBBCCBKECBKcXbABCbVJVCgSbHPGBcSDUMbLBFVRPcLBBBhABEDcKSYfRFBQBDBBBBBBBDBGCEBBCEB
      MELbWcScGeMcuqMiO"⟩,
  ⟨["6.1", "v61"],
    .ofTable "
      ccTBeMBzRBBLcDbBtDBbmRCsTBFBbVDebBDMGjWIbREecQBBBbyQCbZBFBcEChUKbraEBcnNIbJBjICWBcZCbcOXbd
      zZCfuUcEGCcrOZHKGcBBOcIcVHKbtUcEIKbhkOcRLbVQRbvwIEBbBBCBBCBBKBEBBBBGBEBBBBBBDBCBBCBBBBBBBB
      BBCBBCEBHBEBEBBBKBRFDBFBRcACyICblSEhGBQBDBBBBBBBDBGCEBBCEB"⟩,
  ⟨["6.2", "v62"],
    .ofTable "mkGB"⟩,
  ⟨["6.3", "v63"],
    .ofTable "ciEBjyVE"⟩,
  ⟨["7.0", "v70"],
    .ofTable "
      biLBqIIdPCeOBzRBLGcYBeQBHByPBbZBcYBeXBiUKdkRIvCCpLPvXCjDPbbHDbfQHbdTBbqIDKbACbGCbIDMBIxUHb
      toVGjMMLDCCcRBsUbFeVEgUbWECbfiVHbhDCTBmHbCbJBbWbRoZbOIcALBfOlZJWKIjOcLIJrWbGbGbNEMfHSHEMHb
      vJBiAbNdIBMBGULSBbReKcHFKHDBICCCWBHBCBFCJCCCDJBFHCHDFkHcUIKgKcCCScCcRLKwKdFMBrGcFdfIbQhUMF
      BbalFbFBKECdSbECGKcSKKBHBVFTbemAeDFNDJHKCIqkYhPCQczWBbGWVCuMMJBcSBWMbLBFEFMRHcTBBBhABECcLC
      EHbDSBbPBdIcSCNbWcSKQNDEfKdHbRMEcEIKGbOIbE"⟩,
  ⟨["8.0", "v80"],
    .ofTable "
      dhRCbUBuNBnOBkABcmVBCGevOBhVCdyEEbrwVJcoUBjGBbIGmMCxMEMdCbffQCebGTBCFFhGCCQCbUyQbZNbZHGbvD
      EOFgEHBBBEBPBLdIBdBByJUlEbADPEQerPBiWhOlqQwLcawLLchZzCPFBPjhDDdACdBFbKIjVBcXFjJCfJBwDJdZFc
      HBcucLinQ"⟩,
  ⟨["9.0", "v90"],
    .ofTable "
      dhUIWPbjPBhYBEDBHXDfrZJoGBchBEdxCCbtzLBkSBbhqDCbeVbKEbKfaOBrHdMBBBBtUNccXJBbTBOKbDDbGCWBOb
      fmVBbFjbPTbdBbgfLHBRCHBCBFdiZcXFKECddBSfMBbfYBbPBlOCbHDvAGBIIBCMBMEPbMN"⟩,
  ⟨["10.0", "v100"],
    .ofTable "
      deMLpLCjSGtSBcGCfyWBjUEbbHBbfZBczAByCFbcMBbpxNVblpIDiqQcUIcACXBFxHHBCBbSDBBCBJIKbfgPByhKkZ
      dDpGyaEGbrPCbICtZMTBIIBCZBSNbMGcEXdcpDlbL"⟩,
  ⟨["11.0", "v110"],
    .ofTable "
      caYBbNBdYBuFDiDBlMBePBpHBeXBenRBboHbRCDfrMDWZEPwPFbcIBbpyHFcyHBICmMCbkvCCSBbaTbOIKrMbOIbQo
      HBeODtGBlEBbaXBiVcIxLBbbEGBCBbLBCBGHKlYZbeaPdNjpIFbcjUUeWHjlWcQbsCBceZBiLEoIDbCFCEDBBEYLNK
      HCbKZdSO"⟩,
  ⟨["12.0", "v120"],
    .ofTable "
      esTBuGBCBCBBGEBHBHCCBNBfkHBfpUBcBBwTBbtzMGCFbjRCbmbGXbrKBxCBbcPICbUCLgDCbzMbYNBhqUJwjKGEBb
      VJdMCjcWGprCDREsaQbTDOCKECoEcGFBcjZBbkNcJbpEBcbGBbKBiVMlDDbVBbXBJBbPGDCKGDICDbWdGbCEEDFDNG"⟩,
  ⟨["12.1", "v121"],
    .ofTable "tiDB"⟩,
  ⟨["13.0", "v130"],
    .ofTable "
      diCKzDBqOBeUBfaJCgjUBbaUDbhOFkpIKbfdGNcySEbQCcBBbfVEbgqQBewXbQBDCCjUbCoPBfECzABFCbtMHCBCIB
      CBbEBCCMJKckKBbejRBLCkfXsPbQJblwUDdPDcJBbyUCbJCqTCdMBdXBECbQCGDbDBgMBOEPTHHJDNHbPfRBcDbLKc
      msJHbhtQhhZ"⟩,
  ⟨["14.0", "v140"],
    .ofTable "
      ciFBwWbFBCGIVBSLbhPBbGBeXBdwHBHBJBjFBbaNOeVBbWCyLBbbHBeiOBbVBtFLbraTDcyICOCBBBFYDbftDBoRQe
      XBbUCcvGLBPBHBCBLBPBHBCrJGBbQBJcxXbAiWGcYBcgSBfEHbhPQhwYdVwdXdBBKbaeWEBHBClCEliBbUCXJeMvDC
      eyVbFbhXbFbzDHBEBCBPfqKDkMBpCBdEBgSCbSEKEIDRDGIIHcncPCgeVE"⟩,
  ⟨["15.0", "v150"],
    .ofTable "
      exNBsGBdtaKDbfZDdiCKbnARBbPDbChxDBJbDbvhKBbIBmrAUerHGkBcKbHBbpWbQguCBfVDEFdLBzRDPCbKDLDBBO
      CKCMBOCcthOBbiwSgfG"⟩,
  ⟨["15.1", "v151"],
    .ofTable "seMEtBBkeiQxY"⟩,
  ⟨["16.0", "v160"],
    .ofTable "
      dgPBhcGCbVBkFCcwYDffECbsqVDMDbjoLcActWbMDbDIClUDcDBbsLKBBCBBbMBKBBCBBEBKBCICbcVUbvWbIOKbhG
      BhyZfxRkzTcGeoKcGlyJBxwIjQGqUitObREBhcCKECrNBFBbUBHBVBCBJBiRbL"⟩]

/-- The characters of a version: those that are new in it or in one before. -/
def charsOfAge? (name : String) : Option CharSet :=
  match ages.span fun s => !s.names.contains name with
  | (before, s :: _) => some (.unions (s.set :: before.map (·.set)))
  | (_, []) => none

end Linkage
