import Linkage.Text.CharSet

/-! The general categories of characters. -/
namespace Linkage

/-- A set of characters and its names, in lower case and without underscores. -/
structure NamedSet where
  names : List String
  set : CharSet

/-- The set of that name. -/
def NamedSet.find? (name : String) (sets : List NamedSet) : Option CharSet :=
  (sets.find? fun s => s.names.contains name).map (·.set)

/-- The categories of single characters. Code points without a character have another one. -/
def basicCategories : List NamedSet := [
  ⟨["lu", "uppercaseletter"],
    .ofTable "
      cNbAdXXBHbHBBBBBBBBBBBBBBBBBBBBBBBBBBBBBBBBBBBBBBBBBBBBBBBBBBBBBBBCBBBBBBBBBBBBBBBCBBBBBBB
      BBBBBBBBBBBBBBBBBBBBBBBBBBBBBBBBBBBBBBBCBBBBDCBBBCBDCEBCBDDCBCBBBBBCBBCBBCBDBBBCDBHBCBCBCB
      BBBBBBBBBBBBBBCBBBBBBBBBBBBBBBBBCBCBBDBBBBBBBBBBBBBBBBBBBBBBBBBBBBBBBBBBBBBBBBBBBBBBBBBBBB
      BBBBBBHCBCCBBEBBBBBBBBlDBBBDBIBGBBDBBBCBRBJbJBCDDBBBBBBBBBBBBBBBBBBBBBBBFBCBBCCbZbWBBBBBBB
      BBBBBBBBBBBBBBBBBBBBBBBBBBJBBBBBBBBBBBBBBBBBBBBBBBBBBBBBBBBBBBBBBBBBBBBBBBBBBBBBBCBBBBBBBB
      BBBBCBBBBBBBBBBBBBBBBBBBBBBBBBBBBBBBBBBBBBBBBBBBBBBBBBBBBBBBBBBBBBBBBBBBBBBBBBBBBBBBBBBBBB
      BBBBBBBBBBCbMehDbMBBFBbbUdIdgLBGbRCDmIBBBBBBBBBBBBBBBBBBBBBBBBBBBBBBBBBBBBBBBBBBBBBBBBBBBB
      BBBBBBBBBBBBBBBBBBBBBBBBBBBBBBBBBBBBBBBBBBBBBBBBBBBBBBBBBBBBBBBBBBBBBBBBBBBBBBBBBBBBBBBBBB
      BBBBBBBJBBBBBBBBBBBBBBBBBBBBBBBBBBBBBBBBBBBBBBBBBBBBBBBBBBBBBBBBBBBBBBBBBBBBBBBBBBBBBBBBBB
      BBBBBBBBBBBBBBBJIIGKIIIIGLBBBBBBBIIcUEMEMEMFLEkCBEBDDCDCBDFGBBBBBBECEKCFBcJBdzGbWbWBBDCBBB
      BBBEBBCBIDBBBBBBBBBBBBBBBBBBBBBBBBBBBBBBBBBBBBBBBBBBBBBBBBBBBBBBBBBBBBBBBBBBBBBBBBBBBBBBBB
      BBBBBBBBBBBBBBBBBBIBBBEBbtyJBBBBBBBBBBBBBBBBBBBBBBBBBBBBBBBBBBBBBBBBBBBBBTBBBBBBBBBBBBBBBB
      BBBBBBBBBBBfFBBBBBBBBBBBBBDBBBBBBBBBBBBBBBBBBBBBBBBBBBBBBBBBBBBBBBBBBBBBBBBBBBBBBBBBBBBBKB
      BBBCBBBBBBBBEBBBCBBBDBBBBBBBBBBBBBBBBBBBBFBFBBBBBBBBBBBBBBBEBBBCDBFBBBBBBBYBbhaHbAbuZbOfGb
      KgALBPBHBCcqCbZgBWegObGbgjWbGbmmQbAbAbAbAbAbABBCCBCCCEBIbAbAbACBECIBHbBCBEBFBBDHbBbAbAbAbA
      bAbAbAbAbAbAbAbEZbHZbHZbHZbHZbHBgnLbI"⟩,
  ⟨["ll", "lowercaseletter"],
    .ofTable "
      dTbAcGBbPYBIBBBBBBBBBBBBBBBBBBBBBBBBBBBBBBBBBBBBBBBBBBBBBBBBBBBBBBBCBBBBBBBBBBBBBBBCBBBBBB
      BBBBBBBBBBBBBBBBBBBBBBBBBBBBBBBBBBBBBBBBCBBBBDCBBBCBDCEBCBDDCBCBBBBBCBBCBBCBDBBBCCCDGBCBCB
      BBBBBBBBBBBBBBBCBBBBBBBBBBBBBBBBBCCBBBDBBBBBBBBBBBBBBBBBBBBBBBBBBBBBBBBBBBBBBBBBBBBBBBBBBB
      BBBBBBBHCBCCBBEBBBBBBBBcRBbBhLBBBDBDDSBbBbJBCDDBBBBBBBBBBBBBBBBBBBBBBBFBBCBCCbZbWBBBBBBBBB
      BBBBBBBBBBBBBBBBBBBBBBBBBJBBBBBBBBBBBBBBBBBBBBBBBBBBBBBBBBBBBBBBBBBBBBBBBBBBBBBCBBBBBBBBBB
      BBCBBBBBBBBBBBBBBBBBBBBBBBBBBBBBBBBBBBBBBBBBBBBBBBBBBBBBBBBBBBBBBBBBBBBBBBBBBBBBBBBBBBBBBB
      BBBBBBBBBbWbPehBbRCDbdGGdfUJBBeNbScLNBbIdYBBBBBBBBBBBBBBBBBBBBBBBBBBBBBBBBBBBBBBBBBBBBBBBB
      BBBBBBBBBBBBBBBBBBBBBBBBBBBBBBBBBBBBBBBBBBBBBBBBBBBBBBBBBBBBBBBBBBBBBBBBBBBBBBBBBBBBBBBBBB
      BBBBBBBBBBJBBBBBBBBBBBBBBBBBBBBBBBBBBBBBBBBBBBBBBBBBBBBBBBBBBBBBBBBBBBBBBBBBBBBBBBBBBBBBBB
      BBBBBBBBBBBBBBBBBBJIGKIIIIGKIIIIOCIIIIIIFBCGBDDBCIECCIIKDBCkOBDCDBbBBEBEBCCIEEBcBBebBbWBBD
      CBBBBBBEBBCBGFBBBBBBBBBBBBBBBBBBBBBBBBBBBBBBBBBBBBBBBBBBBBBBBBBBBBBBBBBBBBBBBBBBBBBBBBBBBB
      BBBBBBBBBBBBBBBBBBBBBBCHBBBEBMbMBBFBbtwDBBBBBBBBBBBBBBBBBBBBBBBBBBBBBBBBBBBBBBBBBBBBBTBBBB
      BBBBBBBBBBBBBBBBBBBBBBBfFBBBBBBBBBBBBDBBBBBBBBBBBBBBBBBBBBBBBBBBBBBBBBBBBBBBBBBBBBBBBBBBBB
      BBBBBBBBBBBIBBBBCBBBBBBBBBEBBBCBBDBBBBBBBBBBBBBBBBBBBBFBFBBBBBBBBBBBBBBBEBBBCBDBBBBBBBBBBB
      bABDBbfPbRFJHdCbeaIHMFboZbAbvHbOfGbKfZLBPBHBCcrBbZeVWegObGbgjWbGbmmKbAbAHBSbAbAbAEBBBHBLbA
      bAbAbAbAbAbAbAbAbAbAbAbAbAbAbAbAbCbCZBGbAZBGbAZBGbAZBGbAZBGBBcsYKBUGGduDbI"⟩,
  ⟨["lt", "titlecaseletter"],
    .ofTable "rLBCBCBbMBlfHIIIIIMBPBbVB"⟩,
  ⟨["lm", "modifierletter"],
    .ofTable "
      baMSEMOFHBBBfDBFBsKBiWBgICkJCEBbFBJBDBgEBgLBbvOBeXBvTBcpMBeDBxNBrWGgScLNBbIbLbaNBNBQNemXCj
      HBhJBsBBbRFFBdTCdPDbqbUBbwCGkKBeKBbCCeRJdCBXBeBDDCsBBWBfHBeEBVCdZEJBbfvIBbTCczOGBbQBJccXBb
      GBbjnSEtODbOCvENcMCBBygQEBHBCsgNcKhTHbkFBbrBB"⟩,
  ⟨["lo", "otherletter"],
    .ofTable "
      gOBPBjWBEEiABbfVbBEEbTbGBKbJCBdVBBYCKDCBQBBbEbDdLLBYbHVWbQZHLFYBGRbPcHcCDBSBHKQPEICCCWBHBB
      DEDBQBNCBDOCKBIGECCWBHBCBCBCbFEBBTDQJBDBWBHBCBFDBSBPCXBLICCCWBHBCBFDBbECBDPBRBBGDDBEDCBBBC
      DCDDDMWBcAIBDBXBQDBbADCBCCbEBEIBDBXBKBFDBbFCBCPCRJBDBbPCBQBFDIDYGFSDYBJBBCHcGbWBCMGcHCBBBF
      BYBBBKBCJBCFXEbGBcLIBbKbBFeLbRUBQGEEDBDCHDENMBeJmRBECHBBBECbPBECbHBECHBBBECPBcFBECcPbLQeJx
      WCRBbAFcXGIHSNTOSONBDPcAbOBcPbJBcBHFCbIBBFcSKbFbXbECFLbSEbAcCXJcBgUbVRIcCbENCKbSbAbKbPDKbE
      eJEBGBCDBbpQEenVcEYXJHBHBHBHBHBHBHBHvFBcBBEdIIBBdMEBFbRBdQRbGbWQtSjtOcMbfcFBbrZcPbOIkIEQKC
      cOBbXcSgNBdZBDHBDBEBXbDcAObYcKGDBBCLbCKXZbDHbVbTFCJKFBbPXDBIUQBGDBDbYBBDCCFCBBBYCDLHBOGCGC
      GJHBHfPbJbDqnSMXEbXmnCoCCeCcPBBKBNBFBBBCBCBeEbHnZScMCcCbOMeMFBfFeBKBbTCbFDGCGCGCDbJMBbABTB
      CBPCObIeToZbDDbXbVbGNUBIGbMKbECbKEIeYdAdUbOIcAdOcAMlZJWKIfWGCBBbSBCDBCXKXJbFcNTBCKWKbAcScE
      GCcMBPEBDBbDbQbDDbDbJIBbCbBcCKWKTNSeGcVhBbKbMEBBlSbQGCQDcHbDKBIWbQSbUVbBXMcBcFCCBNbTbGZbAb
      KbDBCBIbJDBMbWOEVBBBbJSBZTCcLHBBBEBPBKHbVbMICCCWBHBCBFDBSBMFbEKBBCBBbMBBZBBBbScBSEUDbEbWUC
      BBhCbVbPEbKbWUBcHbRNBcTbBbLHhDbSiDICBCIBCBYPBBBdQICbNQBBBbCBKbOHBVBLbUTBScVhRbHbFJBbLRBbXb
      EeIHBCBbMVBZGBCBbGOBmPTPBBNBbIeUBdBbjMiWhOdxKdTPbpGRGZfxRFwLkdDbEcpUvXHbFRdBRbESbWbZVFTqTb
      OpPcXFBgTjcAIbvQbPKngHlFPBbDDCBOEIpGdkUeDFNDJHKnbCBtHbTbHBmJbESbSsQbBiVbECBtBHBEBCBPBhPbzN
      EBbBBCBBCBBKBEBBBBGBEBBBBBBDBCBBCBBBBBBBBBBCBBCEBHBEBEBBBKBRFDBFBRgoAclfCbGgdUGiOCinQOlbLP
      xYdqWuWcfYhhZFgfG"⟩,
  ⟨["mn", "nonspacingmark"],
    .ofTable "
      bdOeIkPFkFbTBBBCBCBBcULbWVQBdXHCGCCBEbJBbEbBdNLcGJJBYEBJBDBFbRDcHJbQYBbGcDBBBEIEBDHKCbDBcG
      BEEIBUCbABCCcFBECECCDDBbECDBLCcFBEFBCEBUCWGBBcGBCBBEIBHCLCbEBcJBMBbYBDBcDBBDFDBEHCLCbDBcGB
      CBGBFCUCbCCcFCEEIBUCbDBcUBHDBBdMBCHMIdUBCJLHcVCbBBBBBBcDOBFBCFLBbKJBdYEBGBCCCZCEDQENBCCGBP
      BbbBDbkKDbDCbECbECcMCBHIBCLJBbTDBBeNCbIBeODECJBGDiLCCBcGBBHBBBBCIGKCBbWOBQbXEbWBBFBBFBbOJM
      CbGECCBDcEBBCDBBDcGICCfWDBNBHEBGBDChQcMbbSNEBDMeoCDfLBdSbGvIEeDCbsqEBEKbGCdCCkMBDBEBZCFBfV
      CbASNBbMIZLbUDbWBCECCbNBcPGCCCCMBIBbVBbZBBDCCFCBBbQCIBjEBCBEBbdzSBbcJQQQblLBiSBfTFcmGDBCFE
      bODEBgJCwBEcNFmFCdBEcSLbXEeTBcCPbPBCCKDbXECCHBcJDbKFBIcKBMCcAJKECBdRDCBBCGBCBgBBDIVCcFCDBb
      LHDFcSGNBBBBBOCdHICDBBXBdGGBBECBCjEEGCBCbBCdHICBBCeCBBBCGBBdXBBBCEBFjZJBCjWCBBEBfOECCEBbGK
      bOGCEIBJGCDbUNBCpQHBGBBdEWCHBCBCeSGDBBCBHBBcUCDBBBnJCLCcAFFBBBXBhxTBGPqyYMDDdsAFcHHboIBcLE
      dDBbdbKCgyZbUCXuYDRICHbEEfSDcyDcDEbYIBOBWFBPcaIHBRCHBCBFdWBgEHoLBcJEtOEjUCbcIHeFHbtciVjG"⟩,
  ⟨["mc", "spacingmark"],
    .ofTable "
      dkTBcDBCDIEBCbYCcGDGCCCKBbRBcGDcOBcGDIBBCcBCcGBBBGCCCKBdYCBCDDBDKBbPDcJEcJCcGBBFCCBCJCbCBO
      CcGDFDBDKBbQCcXDGISCmSCcLBgPCEBGBCCZCKDCHVCCGCBKDclSBbEBeZBHIBCnIECDECBGiQCcGBBBJBBCIGfPBb
      WBFBBFBCcJBbEBECCBcIBCDBBDCbWIICgPBVBhhECbtlBCCBdKCbYQfMCbVBbWCECCDeGCCCYBbTBBBeFBCCFBjDCB
      CBCBBblxJBBBeXBbTDECeLBYCcHBbWDJCNBdPDDCBBgODbFCcGCBECCCDJBKCdGDHBCBBEBCBBdXDICDBeCDGBBECB
      jDDGECBeJDICBBeFBBCGBdZBBCEBkBDJBjNGBCEBCBBBfMDIEEBdGBbDCcKBpRBOBeCBHBCBiFFECBBnMCMBbWCICB
      ByyYDfjGcDeACbkxNCGG"⟩,
  ⟨["me", "enclosingmark"],
    .ofTable "bsQCikQBciGEBDbyoXD"⟩,
  ⟨["nd", "decimalnumber", "digit"],
    .ofTable "
      bWKciOKfEKhQKpWKeOKeOKeOKeOKeOKeOKeOKeOKeOKdSKeOKcSKkSKcSKctQKbMKlOKeYKgKKGKhAKdIKfEKGKcae
      OKbaCKbMKhQKWKdIKpQKbfmCKccKKdfYKGKbeQKeYKcIKfOKkSKnEKeOKoKKdYKGUcYKqGKdYKzMKdIKjMKcSKqGKy
      yGKdmCKdIKfEKuOKbkdYKecQbYdnCKqGKtIKjNKbgVKhbAK"⟩,
  ⟨["nl", "letternumber"],
    .ofTable "irUDdyTbJCEfmSBZJODbsyLKbifGcBrSBIBfEFmeSeH"⟩,
  ⟨["no", "othernumber"],
    .ofTable "
      gWCFBCDdmRGoMGeQDfDHiJHRJqRKbpLUbrVKsMBcmVBDGGKhQQbPBbbYcIdAWyGbEcbHBbtCEfIKbEIBPbGKbNPbsm
      IGbhqNbTcNERCnDbBbKEbzGIZHbNJcXFWGgECCQCbUcMJcACbEDcXFeAIYIbPHmSGnObFgCKbQEeIHfEUoPUbzXCqO
      JbhNTbgTVbcpQHbeSXblyFUMUeEZibUJbjTcHBDBEcYbTBPblAN"⟩,
  ⟨["pc", "connectorpunctuation"],
    .ofTable "dRBmbVCTBdgaOCYDjFB"⟩,
  ⟨["pd", "dashpunctuation"],
    .ofTable "bTBcaUBbZBfkJBbnPBdbDGfhXBCBbFCEBbCBrEBTBeHBczwACbLBKBgNBflOBmGB"⟩,
  ⟨["ps", "openpunctuation"],
    .ofTable "
      bOBbYBbFBfpEBBBcuOBdpMBDBbMBcDBPByKBBBbEBbpUBBBBBBBBBBBBBdCBbGBBBBBBBBBpOBBBBBBBBBBBBBBBBB
      BBBBcMBBBbHBboVBBBBBBBZBSBBBBBBBqMBBBBBBBBBDBBBBBBBCBczrTBiHBbDBBBBBBBBBBBBBBBDBRBBBBBgOBb
      YBbFBDBCB"⟩,
  ⟨["pe", "closepunctuation"],
    .ofTable "
      bPBbZBbFBfpDBBBcuOBdrDBcDBPByKBBBbEBbpUBBBBBBBBBBBBBdCBbGBBBBBBBBBpOBBBBBBBBBBBBBBBBBBBBBc
      MBBBbHBboVBBBBBBBbSBBBBBBBqMBBBBBBBBBDBBBBBBBCCczrQBiJBbDBBBBBBBBBBBBBBBDBRBBBBBgOBbZBbFBC
      BCB"⟩,
  ⟨["pi", "initialpunctuation"],
    .ofTable "gPBlxKBCCCBZBffSBBBEBCBPBDB"⟩,
  ⟨["pf", "finalpunctuation"],
    .ofTable "hFBlwVBDBbCBffSBBBEBCBPBDB"⟩,
  ⟨["po", "otherpunctuation"],
    .ofTable "
      bHDBDCBBBBCKCDCbBBcQBFBOCHBbbABIBrYGbPBcCBCBCBbSCUCBCNBBDcWEdYBbROiZDcCPbFBkBCKBfKBeQBeRBp
      ABMBoDBdMBKCgMPBBeIBcWFECeHGgPBxOJbdTBeUDcTCgBDBDbLGBEmBCiICeYHBGgECKHbCDeUEcHFcKCcMILBbgC
      CIIIJCECDDLBBBKeuCEBCeIBfNCEDCBCJBCBBCCKFBKCEBBBNCDqMDcFBhHBbryGCkJDdVBKBeLGoQEdICbODBBbXC
      bVBdTNQCeUEeWCQCjPBbfcUHCBWBUCCEDDBEHDGBBCfTDBDCBBBBCKCDCbBBbKBCCpUDzSBbWBpYBbcPBhRBbFBkMJ
      bMBeIHcOHdLEbkQFbSEhHHeFCBEeWEbWCdBEEBNBBDdKGeDBlMCBCeKFKCBBeABjQXeBDbCNcYBfADjSBkEDfZBdOI
      dFDBFdPKiHBdRFbQCyVCcWNgTBbrSFejCCwdVCfDBcNFIBvGDlJEmPBbdbOBliLFeiTBbhEC"⟩,
  ⟨["sm", "mathsymbol"],
    .ofTable "
      bRBQDcJBBBbTBEBbLBbFBbdMBuHDjyHBNBbNDNDfJBbNFGBcQFFCEBCBCBHBbFCCBBBbFkIbGCdMBbEZbOGsBBJBcC
      IeHBmYFCbFKQjWfBWcLEbGCjYbWVCGdasQBbfSBBDgIBQDcJBBBfBBGEfeFCcyeZBZBbFBZBbFBZBbFBZBbFBZBiuE
      C"⟩,
  ⟨["sc", "currencysymbol"],
    .ofTable "bKBeVEbwJBeTBtECtECHBjLBkDBwJBdqPBdiIbHbzhVBbgmLBeEBfYBiLCDCmcSEcvxEBdrKB"⟩,
  ⟨["sk", "modifiersymbol"],
    .ofTable "
      dQBBBcTBGBEBDBuBEMOFHBBBReNBOCbxIBiuMBBDLDNDNDNCghOCbsvRXJCdZCblOBOCbekKRbiHBBBgGBdolJF"⟩,
  ⟨["so", "othersymbol"],
    .ofTable "
      gKBCBEBBBblPBkGCeXChYBKBTCjNBtVBoJBfAGBBfCBhZBbPBpBDPBBDCGUBBBBBfDIBGBCFEhPCbcYKbbVBbbUBgB
      bInPKJJccHCBEBCKBBCGGBBBBBBEBLCOBBCBBcGCJFCEBCBCBHBbFCCBBBbFkIIEUCHCdDBbEZbOGcUWLdDdAWhBBJ
      BcCIeHBjObSbScMjWtSbWVCGbNCbGBeBiVGnTCbUbABdLMiGbAQEBNCMBVCGCmYCEKbGbMJBQbFLbEIBPbGKbNPmIj
      tOcMbguIcDbhHEKCBBwBDbfjAQeXBbTDsQBDBECNCmBJcFRCDBNDBbVbTclUCwTBesSBdgNIERbcnIEFBbeuWBfvNj
      GQqUgAeMcIjMKbNCcIFDWCHbEEcJVcODBhEdJbtXtScDEbYIBOBCcoUBehWBeZBbbTbSEdWMPCPBPBbLXgFcEbDNbS
      EJHCOGfYjRFbcAERDNDePEdRGMEBPMEcEIKGbOIbECMECcKnCMOCNDKFcEHPCLGJHfRBdO"⟩,
  ⟨["zs", "spaceseparator"],
    .ofTable "bGBeXBihJBdpNLbKBbVBfxWB"⟩,
  ⟨["zl", "lineseparator"],
    .ofTable "meQB"⟩,
  ⟨["zp", "paragraphseparator"],
    .ofTable "meRB"⟩,
  ⟨["cc", "control", "cntrl"],
    .ofTable "AbGdRbH"⟩,
  ⟨["cf", "format"],
    .ofTable "gRBcaKGWBhKBbXBoUCdCBftJBdaQFbAFbXFBKdghJBjPDgiZBPBnkKQbzqUEhwXIbtkzMBbEdS"⟩,
  ⟨["co", "privateuse"],
    .ofTable "dgvOjmEcahxOdsyOCdsyO"⟩]

/-- The characters of a basic category. -/
def category (code : String) : CharSet := (NamedSet.find? code basicCategories).getD {}

/-- The characters of all categories whose codes begin with this letter. -/
private def major (letter : Char) : CharSet :=
  let isPart (s : NamedSet) : Bool := s.names.any fun code => code.length = 2 && code.front = letter
  .unions ((basicCategories.filter isPart).map (·.set))

/-- Code points that no character has. -/
def unassigned : CharSet := (CharSet.unions (basicCategories.map (·.set))).compl

def letters : CharSet := major 'l'

def marks : CharSet := major 'm'

def numbers : CharSet := major 'n'

/-- All categories by their names: the basic ones, and those that are made of several. -/
def generalCategories : List NamedSet := basicCategories ++ [
  ⟨["l", "letter"], letters⟩,
  ⟨["lc", "casedletter"], .unions [category "lu", category "ll", category "lt"]⟩,
  ⟨["m", "mark", "combiningmark"], marks⟩,
  ⟨["n", "number"], numbers⟩,
  ⟨["p", "punctuation", "punct"], major 'p'⟩,
  ⟨["s", "symbol"], major 's'⟩,
  ⟨["z", "separator"], major 'z'⟩,
  ⟨["c", "other"], (major 'c').union unassigned⟩,
  ⟨["cn", "unassigned"], unassigned⟩,
  ⟨["any"], .all⟩,
  ⟨["assigned"], unassigned.compl⟩,
  ⟨["ascii"], .ascii⟩]

end Linkage
